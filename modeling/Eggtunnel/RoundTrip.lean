/-
Eggtunnel/RoundTrip.lean

The wire format over whole streams.

`decodeFrames` applies `decode_frame` again and again, each time behind the
bytes the last frame took; over the frames of any messages it gives back those
messages and stops in front of whatever follows them.

`read_message` parses the same format from a stream: it decodes the bare
header to find out what is wrong with it, reads the length again and decodes
the assembled frame.  Both decoders go through `decodeHeader`, the checks on
the first fourteen bytes, so the reader agrees with the slice decoder
(`poll_eof`); and since a poll continues where the last one stopped
(`poll_of_pending`, `poll_of_ready`) it does so however the stream is cut
into chunks.
-/
import Eggtunnel.ReadLoop

namespace Eggtunnel

/-! ### Frames behind one another -/

/-- `decode_frame` applied `n` times, each time to what the last one left: the
messages with the bytes each took, and what is left. -/
def decodeFrames : Nat → Bytes → Except ProtocolError (List (Message × Nat) × Bytes)
  | 0, input => .ok ([], input)
  | n + 1, input =>
      match decodeFrame input with
      | .error e => .error e
      | .ok (m, used) =>
          match decodeFrames n (input.drop used) with
          | .error e => .error e
          | .ok (ms, rest) => .ok ((m, used) :: ms, rest)

theorem decodeFrames_frames (ms : List Message) (rest : Bytes) :
    decodeFrames ms.length ((ms.map Message.frame).flatten ++ rest)
      = .ok (ms.map fun m => (m, m.frame.length), rest) := by
  induction ms with
  | nil => rfl
  | cons m ms ih =>
      have hfirst := decodeFrame_frame (encodeFrame_frame m)
        ((ms.map Message.frame).flatten ++ rest)
      rw [List.map_cons, List.flatten_cons, List.append_assoc, List.length_cons, decodeFrames,
        hfirst]
      dsimp only
      rw [List.drop_left, ih]
      rfl

/-- A proper prefix of a frame is short of its header or of its payload. -/
theorem decodeFrame_take (m : Message) {n : Nat} (hn : n < m.frame.length) :
    decodeFrame (m.frame.take n) = .error .truncatedFrame := by
  have hle : m.payload.length ≤ maxFrameBytes := (encodeFrame_eq_ok (encodeFrame_frame m)).1
  rw [Message.frame, List.length_append, length_frameHeader] at hn
  by_cases hshort : n < headerLen
  · have hlen : (m.frame.take n).length < headerLen :=
      lt_of_le_of_lt (List.length_take_le n _) hshort
    rw [decodeFrame, if_pos hlen]
  · have htake : m.frame.take n
        = frameHeader m.kind m.payload.length ++ m.payload.take (n - headerLen) := by
      rw [Message.frame, List.take_append, length_frameHeader,
        List.take_of_length_le (by rw [length_frameHeader]; omega)]
    have hbody : (m.payload.take (n - headerLen)).length < m.payload.length := by
      rw [List.length_take]
      omega
    rw [htake, decodeFrame_header m.kind hle, if_pos hbody]

/-- **The wire round trip.**  Every message encodes; the frames of any list of
messages, whatever follows them, decode one after the other to exactly those
messages, each taking exactly its own encoding; and every proper prefix of a
frame asks for more bytes. -/
theorem wire_round_trip (ms : List Message) (rest : Bytes) :
    (∀ m : Message, encodeFrame m = .ok m.frame) ∧
      decodeFrames ms.length ((ms.map Message.frame).flatten ++ rest)
        = .ok (ms.map fun m => (m, m.frame.length), rest) ∧
      ∀ m : Message, ∀ n < m.frame.length, decodeFrame (m.frame.take n) = .error .truncatedFrame :=
  ⟨encodeFrame_frame, decodeFrames_frames ms rest, fun m _ hn => decodeFrame_take m hn⟩

/-- A `Ping` in front of one more byte, and its first five bytes alone. -/
theorem wire_round_trip_ping :
    decodeFrames 1 (ReadLoop.pingFrame ++ [1]) = .ok ([(.ping ⟨9⟩, 15)], [1]) ∧
      decodeFrame (ReadLoop.pingFrame.take 5) = .error .truncatedFrame :=
  have h := wire_round_trip [.ping ⟨9⟩] [1]
  ⟨h.2.1, h.2.2 (.ping ⟨9⟩) 5 (by decide)⟩

/-! ### The checks on a header -/

/-- The length field of a header. -/
def lengthField (head : Bytes) : Nat :=
  fromBe32 (head.getD 10 0) (head.getD 11 0) (head.getD 12 0) (head.getD 13 0)

/-- What `decode_frame` checks in front of the length field. -/
def decodeKind (input : Bytes) : Except ProtocolError MessageType :=
  if input.take 4 ≠ magic then .error .invalidMagic
  else if fromBe16 (input.getD 4 0) (input.getD 5 0) ≠ protocolMajor then
    .error (.unsupportedVersion (fromBe16 (input.getD 4 0) (input.getD 5 0))
      (fromBe16 (input.getD 6 0) (input.getD 7 0)))
  else MessageType.ofId (fromBe16 (input.getD 8 0) (input.getD 9 0))

/-- What `decode_frame` does with a payload of `len` bytes. -/
def decodeBody (kind : MessageType) (len : Nat) (body : Bytes) :
    Except ProtocolError (Message × Nat) :=
  if maxFrameBytes < len then .error .frameTooLarge
  else if body.length < len then .error .truncatedFrame
  else match decodePayload kind (body.take len) with
    | some m => .ok (m, headerLen + len)
    | none => .error .invalidPayload

/-- `decode_frame` reads the header before it looks at the payload. -/
theorem decodeFrame_of_header {input : Bytes} (h : headerLen ≤ input.length) :
    decodeFrame input = match decodeKind input with
      | .error e => .error e
      | .ok kind => decodeBody kind (lengthField input) (input.drop headerLen) := by
  have hrest (len : Nat) :
      input.length < headerLen + len ↔ (input.drop headerLen).length < len := by
    rw [List.length_drop]
    omega
  rw [decodeFrame, if_neg (Nat.not_lt.mpr h), decodeKind]
  by_cases hmagic : input.take 4 ≠ magic
  · rw [if_pos hmagic, if_pos hmagic]
  rw [if_neg hmagic, if_neg hmagic]
  by_cases hmajor : fromBe16 (input.getD 4 0) (input.getD 5 0) ≠ protocolMajor
  · rw [if_pos hmajor, if_pos hmajor]
  rw [if_neg hmajor, if_neg hmajor]
  simp only [hrest]
  rfl

theorem getD_append_of_lt {head : Bytes} {i : Nat} (h : i < head.length) (body : Bytes) :
    (head ++ body).getD i 0 = head.getD i 0 := by
  rw [List.getD_eq_getElem?_getD, List.getElem?_append_left h, ← List.getD_eq_getElem?_getD]

/-- The checks on a header and its length field see nothing behind it. -/
theorem header_append {head : Bytes} (h : headerLen ≤ head.length) (body : Bytes) :
    decodeKind (head ++ body) = decodeKind head ∧
      lengthField (head ++ body) = lengthField head := by
  have hlen : 14 ≤ head.length := h
  have htake : (head ++ body).take 4 = head.take 4 :=
    List.take_append_of_le_length (by omega)
  unfold decodeKind lengthField
  simp (disch := omega) only [htake, getD_append_of_lt, and_self]

theorem decodeFrame_append {head : Bytes} (hhead : head.length = headerLen) (body : Bytes) :
    decodeFrame (head ++ body) = match decodeKind head with
      | .error e => .error e
      | .ok kind => decodeBody kind (lengthField head) body := by
  obtain ⟨hkind, hlength⟩ := header_append hhead.ge body
  rw [decodeFrame_of_header (by rw [List.length_append]; omega), hkind, hlength,
    List.drop_left' hhead]

theorem ofId_ne_truncated (id : UInt16) : MessageType.ofId id ≠ .error .truncatedFrame := by
  unfold MessageType.ofId
  split <;> simp

/-- A header is never truncated itself, so `TruncatedFrame` on fourteen bytes
always speaks of the payload. -/
theorem decodeKind_ne_truncated (input : Bytes) :
    decodeKind input ≠ .error .truncatedFrame := by
  unfold decodeKind
  split_ifs
  · simp
  · simp
  · exact ofId_ne_truncated _

theorem decodeBody_nil (kind : MessageType) (len : Nat) :
    decodeBody kind len [] = .error (if maxFrameBytes < len then .frameTooLarge
      else if len = 0 then .invalidPayload else .truncatedFrame) := by
  unfold decodeBody
  by_cases hbig : maxFrameBytes < len
  · rw [if_pos hbig, if_pos hbig]
  rw [if_neg hbig, if_neg hbig, List.length_nil, List.take_nil, decodePayload_nil]
  by_cases hlen : len = 0
  · rw [if_neg (by omega), if_pos hlen]
  · rw [if_pos (by omega), if_neg hlen]

/-- What `decode_frame` makes of a bare header. -/
theorem decodeFrame_bare {head : Bytes} (hhead : head.length = headerLen) :
    decodeFrame head = match decodeKind head with
      | .error e => .error e
      | .ok kind => decodeBody kind (lengthField head) [] := by
  have h := decodeFrame_append hhead []
  rwa [List.append_nil] at h

/-- No bare header is a complete frame. -/
theorem decodeFrame_bare_ne_ok {head : Bytes} (hhead : head.length = headerLen)
    (r : Message × Nat) : decodeFrame head ≠ .ok r := by
  rw [decodeFrame_bare hhead]
  cases decodeKind head with
  | error e => simp
  | ok kind => simp [decodeBody_nil]

/-! ### One poll against a stream that ends -/

/-- A finished read says what `decode_frame` says of the same bytes: the same
message with the bytes behind its frame left unread, or the same error. -/
def Agrees (b : Bytes) (p : Polled) : Prop :=
  match decodeFrame b with
  | .ok (m, n) => p = .ready (.ok m) (b.drop n)
  | .error e => ∃ rest, p = .ready (.error (.protocol e)) rest

theorem agrees_of_error {b rest : Bytes} {e : ProtocolError} (h : decodeFrame b = .error e) :
    Agrees b (.ready (.error (.protocol e)) rest) := by
  unfold Agrees
  rw [h]
  exact ⟨rest, rfl⟩

/-- Behind an accepted header the reader assembles the frame that the slice
decoder cuts out. -/
theorem agrees_pollBody {head : Bytes} (hhead : head.length = headerLen) (body : Bytes)
    {kind : MessageType} (hkind : decodeKind head = .ok kind)
    (hle : lengthField head ≤ maxFrameBytes) :
    Agrees (head ++ body) (pollBody .eof head (lengthField head) [] body) := by
  generalize hn : lengthField head = len at hle
  have hslice := decodeFrame_append hhead body
  rw [hkind, hn] at hslice
  dsimp only at hslice
  rw [decodeBody, if_neg (Nat.not_lt.mpr hle)] at hslice
  rw [pollBody, List.length_nil, Nat.sub_zero, List.nil_append]
  by_cases hshort : body.length < len
  · rw [if_pos hshort] at hslice ⊢
    exact agrees_of_error hslice
  rw [if_neg hshort] at hslice ⊢
  -- the assembled frame is the slice decoder's, without what follows
  have hcut : (body.take len).length = len := List.length_take_of_le (Nat.not_lt.mp hshort)
  have hframe := decodeFrame_append hhead (body.take len)
  rw [hkind, hn] at hframe
  dsimp only at hframe
  rw [decodeBody, if_neg (Nat.not_lt.mpr hle), if_neg (by omega), List.take_take,
    min_self] at hframe
  cases hpayload : decodePayload kind (body.take len) with
  | none =>
      rw [hpayload] at hslice hframe
      rw [finishRead, hframe]
      exact agrees_of_error hslice
  | some m =>
      rw [hpayload] at hslice hframe
      have hused : headerLen + len = (head ++ body.take len).length := by
        rw [List.length_append, hhead, hcut]
      rw [finishRead, hframe, Agrees, hslice]
      dsimp only
      rw [if_neg (not_not.mpr hused), ← hhead, List.drop_length_add_append]

/-- **One poll against a stream that ends reads what the slice decoder reads.** -/
theorem agrees_poll_eof (b : Bytes) : Agrees b (ReadFuture.start.poll .eof b) := by
  rw [ReadFuture.start, ReadFuture.poll]
  dsimp only
  rw [List.length_nil, Nat.sub_zero, List.nil_append]
  by_cases hshort : b.length < headerLen
  · rw [if_pos hshort]
    exact agrees_of_error (by rw [decodeFrame, if_pos hshort])
  rw [if_neg hshort]
  have hhead : (b.take headerLen).length = headerLen :=
    List.length_take_of_le (Nat.not_lt.mp hshort)
  have hsplit : b.take headerLen ++ b.drop headerLen = b := List.take_append_drop headerLen b
  have hslice := decodeFrame_append hhead (b.drop headerLen)
  have hbare := decodeFrame_bare hhead
  rw [hsplit] at hslice
  cases hkind : decodeKind (b.take headerLen) with
  | error e =>
      rw [hkind] at hbare hslice
      have hne : e ≠ .truncatedFrame := by
        rintro rfl
        exact decodeKind_ne_truncated _ hkind
      rw [hbare]
      cases e <;> first | exact agrees_of_error hslice | exact absurd rfl hne
  | ok kind =>
      rw [hkind] at hbare hslice
      dsimp only at hbare hslice
      rw [decodeBody_nil] at hbare
      by_cases hbig : maxFrameBytes < lengthField (b.take headerLen)
      · rw [if_pos hbig] at hbare
        rw [decodeBody, if_pos hbig] at hslice
        rw [hbare]
        exact agrees_of_error hslice
      rw [if_neg hbig] at hbare
      by_cases hzero : lengthField (b.take headerLen) = 0
      · -- a frame without a payload is malformed for both
        rw [if_pos hzero] at hbare
        rw [decodeBody, if_neg hbig, hzero, if_neg (Nat.not_lt_zero _), List.take_zero,
          decodePayload_nil] at hslice
        rw [hbare]
        exact agrees_of_error hslice
      · rw [if_neg hzero] at hbare
        rw [hbare]
        have hbody := agrees_pollBody hhead (b.drop headerLen) hkind
          (Nat.not_lt.mp hbig)
        rw [hsplit] at hbody
        exact (if_neg hbig).symm ▸ hbody

/-! ### A stream in chunks -/

/-- `read_message` on a stream that brings the chunks one after the other and
then ends: one poll for each chunk, one for the end. -/
def readChunks (fut : ReadFuture) : List Bytes → Polled
  | [] => fut.poll .eof []
  | chunk :: chunks =>
      match fut.poll .more chunk with
      | .pending fut' => readChunks fut' chunks
      | .ready r rest => .ready r (rest ++ chunks.flatten)

theorem take_sub_append {got c d : Bytes} {n : Nat} (h : c.length < n - got.length) :
    got ++ c ++ d.take (n - (got ++ c).length) = got ++ (c ++ d).take (n - got.length) := by
  rw [List.length_append, List.take_append, List.take_of_length_le h.le, List.append_assoc,
    Nat.sub_add_eq]

theorem drop_sub_append {got c d : Bytes} {n : Nat} (h : c.length < n - got.length) :
    d.drop (n - (got ++ c).length) = (c ++ d).drop (n - got.length) := by
  rw [List.length_append, List.drop_append, List.drop_eq_nil_of_le h.le, List.nil_append,
    Nat.sub_add_eq]

theorem pollBody_of_pending {head got c d : Bytes} {len : Nat} {fut : ReadFuture}
    (h : pollBody .more head len got c = .pending fut) (tail : StreamTail) :
    fut.poll tail d = pollBody tail head len got (c ++ d) := by
  unfold pollBody at h
  dsimp only at h
  split_ifs at h with hshort
  cases h
  have hiff : d.length < len - (got ++ c).length ↔ (c ++ d).length < len - got.length := by
    rw [List.length_append, List.length_append]
    omega
  unfold ReadFuture.poll pollBody
  dsimp only
  rw [take_sub_append hshort, drop_sub_append hshort, List.append_assoc]
  by_cases hd : d.length < len - (got ++ c).length
  · rw [if_pos hd, if_pos (hiff.mp hd)]
  · rw [if_neg hd, if_neg (mt hiff.mpr hd)]

theorem pollBody_of_ready {head got c rest : Bytes} {len : Nat}
    {r : Except TunnelError Message} (h : pollBody .more head len got c = .ready r rest)
    (tail : StreamTail) (d : Bytes) :
    pollBody tail head len got (c ++ d) = .ready r (rest ++ d) := by
  unfold pollBody at h
  dsimp only at h
  split_ifs at h with hshort
  cases h
  have hle : len - got.length ≤ c.length := Nat.not_lt.mp hshort
  unfold pollBody
  dsimp only
  rw [if_neg (by rw [List.length_append]; omega), List.take_append_of_le_length hle,
    List.drop_append_of_le_length hle]

/-- What `read_message` does once it has the whole header. -/
def afterHeader (tail : StreamTail) (head rest : Bytes) : Polled :=
  match decodeFrame head with
  | .error .truncatedFrame =>
      if maxFrameBytes < lengthField head then .ready (.error (.protocol .frameTooLarge)) rest
      else pollBody tail head (lengthField head) [] rest
  | .error e => .ready (.error (.protocol e)) rest
  | .ok _ => .ready (.error (.protocol .invalidPayload)) rest

/-- A header settles the read, or it goes on with the payload. -/
theorem afterHeader_cases (head : Bytes) :
    (∃ r, ∀ tail rest, afterHeader tail head rest = .ready r rest) ∨
      ∀ tail rest, afterHeader tail head rest = pollBody tail head (lengthField head) [] rest := by
  unfold afterHeader
  cases decodeFrame head with
  | ok r => exact .inl ⟨_, fun _ _ => rfl⟩
  | error e =>
      cases e with
      | truncatedFrame =>
          by_cases hbig : maxFrameBytes < lengthField head
          · exact .inl ⟨_, fun _ _ => if_pos hbig⟩
          · exact .inr fun _ _ => if_neg hbig
      | _ => exact .inl ⟨_, fun _ _ => rfl⟩

theorem poll_header_whole {got c : Bytes} (h : headerLen - got.length ≤ c.length)
    (tail : StreamTail) :
    (ReadFuture.header got).poll tail c
      = afterHeader tail (got ++ c.take (headerLen - got.length))
          (c.drop (headerLen - got.length)) := by
  unfold ReadFuture.poll
  dsimp only
  rw [if_neg (Nat.not_lt.mpr h)]
  rfl

theorem poll_header_short {got c : Bytes} (h : c.length < headerLen - got.length) :
    (ReadFuture.header got).poll .more c = .pending (.header (got ++ c)) := by
  unfold ReadFuture.poll
  dsimp only
  rw [if_pos h]

/-- A pending read goes on with the next bytes as if they had been there. -/
theorem poll_of_pending {fut fut' : ReadFuture} {c : Bytes}
    (h : fut.poll .more c = .pending fut') (tail : StreamTail) (d : Bytes) :
    fut'.poll tail d = fut.poll tail (c ++ d) := by
  cases fut with
  | body head len got => exact pollBody_of_pending h tail
  | header got =>
      by_cases hshort : c.length < headerLen - got.length
      · rw [poll_header_short hshort] at h
        cases h
        have hiff : d.length < headerLen - (got ++ c).length
            ↔ (c ++ d).length < headerLen - got.length := by
          rw [List.length_append, List.length_append]
          omega
        by_cases hd : d.length < headerLen - (got ++ c).length
        · unfold ReadFuture.poll
          dsimp only
          rw [if_pos hd, if_pos (hiff.mp hd), List.append_assoc]
        · rw [poll_header_whole (Nat.not_lt.mp hd),
            poll_header_whole (Nat.not_lt.mp (mt hiff.mpr hd)), take_sub_append hshort,
            drop_sub_append hshort]
      · have hle := Nat.not_lt.mp hshort
        rw [poll_header_whole hle] at h
        rw [poll_header_whole (hle.trans (by simp)), List.take_append_of_le_length hle,
          List.drop_append_of_le_length hle]
        obtain ⟨r, hr⟩ | hbody := afterHeader_cases (got ++ c.take (headerLen - got.length))
        · rw [hr] at h
          cases h
        · rw [hbody] at h ⊢
          exact pollBody_of_pending h tail

/-- A finished read leaves the bytes that come later unread. -/
theorem poll_of_ready {fut : ReadFuture} {c rest : Bytes} {r : Except TunnelError Message}
    (h : fut.poll .more c = .ready r rest) (tail : StreamTail) (d : Bytes) :
    fut.poll tail (c ++ d) = .ready r (rest ++ d) := by
  cases fut with
  | body head len got => exact pollBody_of_ready h tail d
  | header got =>
      by_cases hshort : c.length < headerLen - got.length
      · rw [poll_header_short hshort] at h
        cases h
      · have hle := Nat.not_lt.mp hshort
        rw [poll_header_whole hle] at h
        rw [poll_header_whole (hle.trans (by simp)), List.take_append_of_le_length hle,
          List.drop_append_of_le_length hle]
        obtain ⟨r', hr⟩ | hbody := afterHeader_cases (got ++ c.take (headerLen - got.length))
        · rw [hr] at h ⊢
          cases h
          rfl
        · rw [hbody] at h ⊢
          exact pollBody_of_ready h tail d

/-- However a stream is cut into chunks, `read_message` reads the same. -/
theorem readChunks_eq (fut : ReadFuture) (chunks : List Bytes) :
    readChunks fut chunks = fut.poll .eof chunks.flatten := by
  induction chunks generalizing fut with
  | nil => rfl
  | cons chunk chunks ih =>
      rw [readChunks, List.flatten_cons]
      cases hpoll : fut.poll .more chunk with
      | pending fut' =>
          dsimp only
          rw [ih, poll_of_pending hpoll]
      | ready r rest => rw [poll_of_ready hpoll]

/-- **The streaming reader agrees with the slice decoder.**  For every byte
string, brought in any chunks by a stream that then ends: `read_message`
returns a message exactly when `decode_frame` does, the same one, and leaves
exactly the bytes behind its frame unread; it fails exactly when
`decode_frame` does, with the same error.  No bare header is ever a complete
frame, so the branch for one is never taken. -/
theorem read_agrees_with_decode (chunks : List Bytes) :
    (∀ m rest, readChunks .start chunks = .ready (.ok m) rest ↔
        ∃ n, decodeFrame chunks.flatten = .ok (m, n) ∧ rest = chunks.flatten.drop n) ∧
      (∀ e, (∃ rest, readChunks .start chunks = .ready (.error e) rest) ↔
        ∃ p, decodeFrame chunks.flatten = .error p ∧ e = .protocol p) ∧
      ∀ head : Bytes, head.length = headerLen → ∀ r, decodeFrame head ≠ .ok r := by
  have hagree := agrees_poll_eof chunks.flatten
  rw [← readChunks_eq, Agrees] at hagree
  refine ⟨?_, ?_, fun head hhead r => decodeFrame_bare_ne_ok hhead r⟩
  · intro m rest
    cases hslice : decodeFrame chunks.flatten with
    | ok r =>
        rw [hslice] at hagree
        rw [hagree]
        constructor
        · rintro ⟨⟩
          exact ⟨r.2, rfl, rfl⟩
        · rintro ⟨n, hn, rfl⟩
          cases hn
          rfl
    | error p =>
        rw [hslice] at hagree
        obtain ⟨rest', hrest⟩ := hagree
        simp [hrest]
  · intro e
    cases hslice : decodeFrame chunks.flatten with
    | ok r =>
        rw [hslice] at hagree
        simp [hagree]
    | error p =>
        rw [hslice] at hagree
        obtain ⟨rest', hrest⟩ := hagree
        simp [hrest, eq_comm]

/-- A `Ping` that arrives in two chunks, the second with one more byte. -/
theorem read_agrees_with_decode_ping :
    readChunks .start [ReadLoop.pingFrame.take 5, ReadLoop.pingFrame.drop 5 ++ [1]]
      = .ready (.ok (.ping ⟨9⟩)) [1] :=
  ((read_agrees_with_decode [ReadLoop.pingFrame.take 5, ReadLoop.pingFrame.drop 5 ++ [1]]).1
    (.ping ⟨9⟩) [1]).mpr ⟨15, decodeFrame_frame ReadLoop.encodeFrame_ping [1], by decide⟩

end Eggtunnel
