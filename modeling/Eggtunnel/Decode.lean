/-
Eggtunnel/Decode.lean

`decode_frame` on arbitrary bytes: what it waits for, and what it accepts.

A caller that holds the beginning of a stream reads on while `decode_frame` says
`TruncatedFrame`.  More bytes never change another answer (`decodeFrame_stable`),
and the answer is `TruncatedFrame` only where bytes of a header, or of a payload
behind a good header, are missing (`decodeFrame_eq_truncated_iff`); so the rules
of `Feed` apply to that caller.

What is accepted need not be what the encoder writes: varints may be over-long,
and capabilities unsorted or repeated.  But it is a message that satisfies the
constructors, and its own frame is no longer than the bytes it came in
(`decodeFrame_eq_ok`, `decodePayload_eq_some`).
-/
import Eggtunnel.RoundTrip
import Eggtunnel.Feed

namespace Eggtunnel

/-! ### The fields of a header -/

theorem decodeKind_eq_ok_iff {p : Bytes} {kind : MessageType} :
    decodeKind p = .ok kind ↔ p.take 4 = magic ∧
      fromBe16 (p.getD 4 0) (p.getD 5 0) = protocolMajor ∧
      MessageType.ofId (fromBe16 (p.getD 8 0) (p.getD 9 0)) = .ok kind := by
  unfold decodeKind
  split_ifs with hmagic hmajor
  · exact iff_of_false nofun fun h => hmagic h.1
  · exact iff_of_false nofun fun h => hmajor h.2.1
  · rw [not_not] at hmagic hmajor
    exact ⟨fun h => ⟨hmagic, hmajor, h⟩, fun h => h.2.2⟩

/-! ### Reading on -/

theorem decodeBody_eq_truncated_iff {kind : MessageType} {len : Nat} {body : Bytes} :
    decodeBody kind len body = .error .truncatedFrame ↔
      len ≤ maxFrameBytes ∧ body.length < len := by
  unfold decodeBody
  split_ifs with hbig hshort
  · exact iff_of_false nofun fun h => absurd h.1 (Nat.not_le.mpr hbig)
  · exact iff_of_true rfl ⟨Nat.not_lt.mp hbig, hshort⟩
  · refine iff_of_false ?_ fun h => hshort h.2
    split <;> nofun

theorem decodeBody_append {kind : MessageType} {len : Nat} {body : Bytes}
    (h : decodeBody kind len body ≠ .error .truncatedFrame) (s : Bytes) :
    decodeBody kind len (body ++ s) = decodeBody kind len body := by
  by_cases hbig : maxFrameBytes < len
  · rw [decodeBody, decodeBody, if_pos hbig, if_pos hbig]
  · have hlen : len ≤ body.length := by
      by_contra hshort
      exact h (decodeBody_eq_truncated_iff.mpr ⟨Nat.not_lt.mp hbig, Nat.not_le.mp hshort⟩)
    rw [decodeBody, decodeBody, if_neg hbig, if_neg hbig, if_neg (Nat.not_lt.mpr hlen),
      if_neg (by rw [List.length_append]; omega), List.take_append_of_le_length hlen]

theorem decodeFrame_eq_truncated_iff {p : Bytes} :
    decodeFrame p = .error .truncatedFrame ↔ p.length < headerLen ∨
      ((∃ kind, decodeKind p = .ok kind) ∧ lengthField p ≤ maxFrameBytes ∧
        p.length < headerLen + lengthField p) := by
  by_cases hshort : p.length < headerLen
  · rw [decodeFrame, if_pos hshort]
    exact iff_of_true rfl (.inl hshort)
  have hlen : headerLen ≤ p.length := Nat.not_lt.mp hshort
  rw [decodeFrame_of_header hlen, or_iff_right hshort]
  cases hkind : decodeKind p with
  | error e =>
      refine iff_of_false (fun h => ?_) (by rintro ⟨⟨kind, ⟨⟩⟩, -⟩)
      obtain rfl := Except.error.inj h
      exact decodeKind_ne_truncated p hkind
  | ok kind =>
      dsimp only
      rw [decodeBody_eq_truncated_iff, List.length_drop, Nat.sub_lt_iff_lt_add' hlen]
      exact ⟨fun h => ⟨⟨kind, rfl⟩, h⟩, fun h => h.2⟩

/-- The caller has to read on. -/
def needsMore : Except ProtocolError (Message × Nat) → Bool
  | .error .truncatedFrame => true
  | _ => false

theorem needsMore_iff {r : Except ProtocolError (Message × Nat)} :
    needsMore r = true ↔ r = .error .truncatedFrame := by
  unfold needsMore
  split
  · exact iff_of_true rfl rfl
  · rename_i hother
    exact iff_of_false nofun hother

/-- Every answer but `TruncatedFrame` is final. -/
theorem decodeFrame_stable : Feed.Stable decodeFrame needsMore := by
  intro p s h
  have hdecided : decodeFrame p ≠ .error .truncatedFrame := by
    rw [← Bool.not_eq_true, needsMore_iff] at h
    exact h
  have hlen : headerLen ≤ p.length := by
    by_contra hshort
    exact hdecided (decodeFrame_eq_truncated_iff.mpr (.inl (Nat.not_le.mp hshort)))
  obtain ⟨hkind, hlength⟩ := header_append hlen s
  rw [decodeFrame_of_header hlen] at hdecided ⊢
  rw [decodeFrame_of_header (by rw [List.length_append]; omega), hkind, hlength,
    List.drop_append_of_le_length hlen]
  cases hp : decodeKind p with
  | error e => rfl
  | ok kind =>
      rw [hp] at hdecided
      exact decodeBody_append hdecided s

theorem length_lt_of_truncated {p : Bytes} (h : needsMore (decodeFrame p) = true) :
    p.length < headerLen + maxFrameBytes := by
  rcases decodeFrame_eq_truncated_iff.mp (needsMore_iff.mp h) with hshort | ⟨-, hle, hlt⟩ <;> omega

/-- An accepted frame: its header, its length, and its payload. -/
theorem decodeFrame_eq_ok {b : Bytes} {m : Message} {n : Nat} (h : decodeFrame b = .ok (m, n)) :
    n = headerLen + lengthField b ∧ lengthField b ≤ maxFrameBytes ∧ n ≤ b.length ∧
      m.payload.length ≤ lengthField b := by
  have hlen : headerLen ≤ b.length := by
    by_contra hshort
    rw [decodeFrame, if_pos (Nat.not_le.mp hshort)] at h
    cases h
  rw [decodeFrame_of_header hlen] at h
  cases hkind : decodeKind b with
  | error e =>
      rw [hkind] at h
      cases h
  | ok kind =>
      rw [hkind] at h
      dsimp only [decodeBody] at h
      split_ifs at h with hbig hshort
      split at h
      · rename_i payload hpayload
        obtain ⟨rfl, rfl⟩ := Prod.mk.inj (Except.ok.inj h)
        have hle := (decodePayload_eq_some hpayload).2
        rw [List.length_take] at hle
        rw [List.length_drop] at hshort
        refine ⟨rfl, Nat.not_lt.mp hbig, ?_, hle.trans (Nat.min_le_left _ _)⟩
        omega
      · cases h

/-- **Incremental decoding is stable and bounded.**  An answer of `decode_frame`
other than `TruncatedFrame` is its answer whatever follows; and it says
`TruncatedFrame` exactly if the header is not complete, or if it is a good header
of at most the largest payload and some of that payload is missing.

So a caller that reads more only on `TruncatedFrame`, in any chunks, never reads
while the beginning of what it holds could be decided; it holds less than the
largest frame whenever it reads, and never as much as the largest frame and one
chunk, of which the frame takes no more than its own bytes; and it is through
after as many reads as the largest frame has bytes, unless a read brings
nothing. -/
theorem incremental_decoding :
    (∀ p s : Bytes, decodeFrame p ≠ .error .truncatedFrame →
      decodeFrame (p ++ s) = decodeFrame p) ∧
    (∀ p : Bytes, decodeFrame p = .error .truncatedFrame ↔ p.length < headerLen ∨
      (p.take 4 = magic ∧ fromBe16 (p.getD 4 0) (p.getD 5 0) = protocolMajor ∧
        (∃ kind, MessageType.ofId (fromBe16 (p.getD 8 0) (p.getD 9 0)) = .ok kind) ∧
        lengthField p ≤ maxFrameBytes ∧ p.length < headerLen + lengthField p)) ∧
    ∀ (chunks : List Bytes) (held : Bytes),
      exec (Feed.step decodeFrame needsMore) [] chunks = some held →
        held = chunks.flatten ∧
        (∀ k < chunks.length, (chunks.take k).flatten.length < headerLen + maxFrameBytes ∧
          ∀ q, q <+: (chunks.take k).flatten → decodeFrame q = .error .truncatedFrame) ∧
        (∀ w, (∀ chunk ∈ chunks, chunk.length ≤ w) →
          held.length < headerLen + maxFrameBytes + w) ∧
        (∀ m n, decodeFrame held = .ok (m, n) → n ≤ headerLen + maxFrameBytes) ∧
        ((∀ chunk ∈ chunks, chunk ≠ []) → chunks.length ≤ headerLen + maxFrameBytes) := by
  refine ⟨fun p s h => ?_, fun p => ?_, fun chunks held hrun =>
    ⟨?_, fun k hk => ?_, ?_, fun m n hok => ?_, ?_⟩⟩
  · exact decodeFrame_stable p s (Bool.eq_false_iff.mpr (mt needsMore_iff.mp h))
  · rw [decodeFrame_eq_truncated_iff]
    refine or_congr_right ?_
    simp only [decodeKind_eq_ok_iff, exists_and_left, and_assoc]
  · exact Feed.buffer_of_run hrun
  · have hwaits := Feed.waits_of_run hrun hk
    rw [List.nil_append] at hwaits
    refine ⟨length_lt_of_truncated hwaits, fun q hq => ?_⟩
    exact needsMore_iff.mp (Feed.waits_of_isPrefix decodeFrame_stable hwaits hq)
  · intro w hw
    refine Feed.length_lt_of_run (fun _ => length_lt_of_truncated) hw ?_ hrun
    exact Nat.lt_add_right w (by decide)
  · obtain ⟨rfl, hle, -⟩ := decodeFrame_eq_ok hok
    exact Nat.add_le_add_left hle headerLen
  · intro hsome
    exact Feed.reads_le_of_run (fun _ => length_lt_of_truncated) hsome hrun

/-- The frame of a `Ping`, read five bytes and then the rest of it. -/
theorem incremental_decoding_ping :
    exec (Feed.step decodeFrame needsMore) []
        [ReadLoop.pingFrame.take 5, ReadLoop.pingFrame.drop 5] = some ReadLoop.pingFrame ∧
      decodeFrame (ReadLoop.pingFrame ++ [1]) = decodeFrame ReadLoop.pingFrame ∧
      decodeFrame (ReadLoop.pingFrame.take 3) = .error .truncatedFrame := by
  have hrun : exec (Feed.step decodeFrame needsMore) []
      [ReadLoop.pingFrame.take 5, ReadLoop.pingFrame.drop 5] = some ReadLoop.pingFrame := by
    decide
  refine ⟨hrun, incremental_decoding.1 ReadLoop.pingFrame [1] (by decide), ?_⟩
  obtain ⟨-, hreads, -⟩ := incremental_decoding.2.2 _ _ hrun
  exact (hreads 1 (by decide)).2 _ (by decide)

/-! ### What the constructors demand -/

/-- The characters of a name. -/
def isNameChar (c : Char) : Bool := c.isAlphanum || c == '-' || c == '_' || c == '.'

/-- What a `ServiceName` has to be. -/
structure NameOk (s : String) : Prop where
  nonempty : s.utf8ByteSize ≠ 0
  bounded : s.utf8ByteSize ≤ 128
  chars : ∀ c ∈ s.toList, isNameChar c = true

/-- What the host of a `TcpTarget` has to be. -/
structure HostOk (s : String) : Prop where
  nonempty : s.utf8ByteSize ≠ 0
  bounded : s.utf8ByteSize ≤ 253
  chars : ∀ c ∈ s.toList, isForbiddenHostChar c = false
  colon : ':' ∈ s.toList → isIpv6Literal s = true

/-- What a diagnostic has to be. -/
structure DiagnosticOk (s : String) : Prop where
  bounded : s.utf8ByteSize ≤ 256
  chars : ∀ c ∈ s.toList, isControl c = false ∧ isFormatChar c = false

/-- What decoded capabilities are. -/
structure CapabilitiesOk (ids : List UInt16) : Prop where
  bounded : ids.length ≤ 32
  sorted : ids.Pairwise (· ≤ ·)
  nodup : ids.Nodup

/-- The checks of the constructors, on what a message carries. -/
def Message.WellFormed : Message → Prop
  | .clientHello v => CapabilitiesOk v.capabilities.ids
  | .serverHello v => CapabilitiesOk v.capabilities.ids
  | .auth v => v.token.length ≤ 4096
  | .registerService v => NameOk v.name.value ∧ HostOk v.target.host ∧ v.target.port ≠ 0
  | .error v => DiagnosticOk v.diagnostic.text
  | .registerReject v => DiagnosticOk v.diagnostic.text
  | .authOk _ | .registerAck _ | .unregisterService _ | .open _ | .openReject _ | .ping _
  | .pong _ | .drain _ | .dataHello _ => True

/-- A string is the encodings of its characters. -/
theorem utf8_eq_flatMap (s : String) : Codec.utf8 s = s.toList.flatMap String.utf8EncodeChar := by
  rw [Codec.utf8, ← String.utf8Encode_toList, List.utf8Encode]
  simp

theorem isNameByte_iff {b : UInt8} : isNameByte b = true ↔
    (48 ≤ b.toNat ∧ b.toNat ≤ 57) ∨ (65 ≤ b.toNat ∧ b.toNat ≤ 90) ∨
      (97 ≤ b.toNat ∧ b.toNat ≤ 122) ∨ b.toNat = 45 ∨ b.toNat = 95 ∨ b.toNat = 46 := by
  simp only [isNameByte, Bool.or_eq_true, Bool.and_eq_true, decide_eq_true_eq, beq_iff_eq,
    UInt8.le_iff_toNat_le, ← UInt8.toNat_inj, or_assoc]
  rfl

theorem isNameChar_iff {c : Char} : isNameChar c = true ↔
    (48 ≤ c.toNat ∧ c.toNat ≤ 57) ∨ (65 ≤ c.toNat ∧ c.toNat ≤ 90) ∨
      (97 ≤ c.toNat ∧ c.toNat ≤ 122) ∨ c.toNat = 45 ∨ c.toNat = 95 ∨ c.toNat = 46 := by
  have hupper : c.isUpper = decide (c.val ≥ 'A'.val ∧ c.val ≤ 'Z'.val) := rfl
  have hlower : c.isLower = (decide (c.val ≥ 'a'.val) && decide (c.val ≤ 'z'.val)) := rfl
  have hdigit : c.isDigit = (decide (c.val ≥ '0'.val) && decide (c.val ≤ '9'.val)) := rfl
  have halphanum : c.isAlphanum = (c.isUpper || c.isLower || c.isDigit) := rfl
  simp only [isNameChar, halphanum, hupper, hlower, hdigit, Bool.or_eq_true, Bool.and_eq_true,
    decide_eq_true_eq, beq_iff_eq, UInt32.le_iff_toNat_le, ge_iff_le, ← Char.toNat_inj]
  show (((((65 ≤ c.toNat ∧ c.toNat ≤ 90) ∨ (97 ≤ c.toNat ∧ c.toNat ≤ 122)) ∨
    (48 ≤ c.toNat ∧ c.toNat ≤ 57)) ∨ c.toNat = 45) ∨ c.toNat = 95) ∨ c.toNat = 46 ↔ _
  omega

/-- Only a character of the charset is encoded in bytes of it. -/
theorem isNameChar_of_bytes {c : Char} (h : ∀ b ∈ String.utf8EncodeChar c, isNameByte b = true) :
    isNameChar c = true := by
  -- the first byte of every longer encoding is beyond the charset
  have hlead {n : Nat} {rest : Bytes} (hn : 128 ≤ n ∧ n < 256)
      (h : ∀ b ∈ UInt8.ofNat n :: rest, isNameByte b = true) : False := by
    have hfirst := isNameByte_iff.mp (h _ List.mem_cons_self)
    rw [toNat_ofNat_of_lt hn.2] at hfirst
    omega
  unfold String.utf8EncodeChar at h
  dsimp only at h
  split_ifs at h with h1 h2 h3
  · have hbyte := isNameByte_iff.mp (h _ List.mem_cons_self)
    rw [toNat_ofNat_of_lt (by omega)] at hbyte
    exact isNameChar_iff.mpr hbyte
  · exact (hlead (by omega) h).elim
  · exact (hlead (by omega) h).elim
  · exact (hlead (by omega) h).elim

theorem nameOk (n : ServiceName) : NameOk n.value := by
  have hvalid := n.valid
  simp only [validName, Bool.and_eq_true, decide_eq_true_eq, ne_eq] at hvalid
  refine ⟨hvalid.1.1, hvalid.1.2, fun c hc => isNameChar_of_bytes fun b hb => ?_⟩
  refine List.all_eq_true.mp hvalid.2 b ?_
  rw [utf8_eq_flatMap]
  exact List.mem_flatMap.mpr ⟨c, hc, hb⟩

theorem hostOk (t : TcpTarget) : HostOk t.host := by
  have hvalid := t.valid.1
  simp only [validateTargetHost, Bool.and_eq_true, decide_eq_true_eq, ne_eq, Bool.or_eq_true,
    Bool.not_eq_true', List.any_eq_false, Bool.not_eq_true] at hvalid
  obtain ⟨⟨⟨hnonempty, hbounded⟩, hchars⟩, hcolon⟩ := hvalid
  refine ⟨hnonempty, hbounded, hchars, fun hmem => hcolon.resolve_left fun hnot => ?_⟩
  rw [List.contains_iff_mem.mpr hmem] at hnot
  cases hnot

theorem diagnosticOk (d : BoundedDiagnostic) : DiagnosticOk d.text := by
  have hvalid := d.valid
  simp only [validDiagnostic, Bool.and_eq_true, decide_eq_true_eq, Bool.not_eq_true',
    List.any_eq_false, Bool.or_eq_true, not_or, Bool.not_eq_true] at hvalid
  exact ⟨hvalid.1, hvalid.2⟩

theorem capabilitiesOk (c : Capabilities) : CapabilitiesOk c.ids where
  bounded := c.bounded
  sorted := c.sorted.imp UInt16.le_of_lt
  nodup := c.sorted.imp UInt16.ne_of_lt

theorem Message.wellFormed (m : Message) : m.WellFormed := by
  cases m with
  | clientHello v => exact capabilitiesOk v.capabilities
  | serverHello v => exact capabilitiesOk v.capabilities
  | auth v => exact v.valid
  | registerService v => exact ⟨nameOk v.name, hostOk v.target, v.target.valid.2⟩
  | error v => exact diagnosticOk v.diagnostic
  | registerReject v => exact diagnosticOk v.diagnostic
  | _ => trivial

/-! ### The minor version -/

/-- The same answer, for another minor version: `UnsupportedVersion` names it. -/
def withMinor {α : Type} (minor : UInt16) : Except ProtocolError α → Except ProtocolError α
  | .error (.unsupportedVersion major _) => .error (.unsupportedVersion major minor)
  | r => r

theorem getD_set_of_ne {b : Bytes} {i j : Nat} (h : i ≠ j) (x : UInt8) :
    (b.set i x).getD j 0 = b.getD j 0 := by
  rw [List.getD_eq_getElem?_getD, List.getElem?_set_ne h, ← List.getD_eq_getElem?_getD]

theorem getD_set_self {b : Bytes} {i : Nat} (h : i < b.length) (x : UInt8) :
    (b.set i x).getD i 0 = x := by
  rw [List.getD_eq_getElem?_getD, List.getElem?_set_self h, Option.getD_some]

/-- The bytes around the minor version. -/
theorem getD_minor {j : Nat} (h : 6 ≠ j ∧ 7 ≠ j) (b : Bytes) (x y : UInt8) :
    ((b.set 6 x).set 7 y).getD j 0 = b.getD j 0 := by
  rw [getD_set_of_ne h.2, getD_set_of_ne h.1]

theorem withMinor_ofId (minor id : UInt16) :
    withMinor minor (MessageType.ofId id) = MessageType.ofId id := by
  unfold MessageType.ofId
  split <;> rfl

theorem withMinor_decodeBody (minor : UInt16) (kind : MessageType) (len : Nat) (body : Bytes) :
    withMinor minor (decodeBody kind len body) = decodeBody kind len body := by
  unfold decodeBody
  split_ifs
  · rfl
  · rfl
  · split <;> rfl

theorem decodeKind_minor {b : Bytes} (h : headerLen ≤ b.length) (x y : UInt8) :
    decodeKind ((b.set 6 x).set 7 y) = withMinor (fromBe16 x y) (decodeKind b) := by
  have hlen : 14 ≤ b.length := h
  have hsix : ((b.set 6 x).set 7 y).getD 6 0 = x := by
    rw [getD_set_of_ne (by decide), getD_set_self (by omega)]
  have hseven : ((b.set 6 x).set 7 y).getD 7 0 = y :=
    getD_set_self (by rw [List.length_set]; omega) y
  have htake : ((b.set 6 x).set 7 y).take 4 = b.take 4 := by
    rw [List.take_set_of_le (by decide), List.take_set_of_le (by decide)]
  unfold decodeKind
  simp (disch := decide) only [htake, hsix, hseven, getD_minor]
  split_ifs
  · rfl
  · rfl
  · exact (withMinor_ofId _ _).symm

/-- **The minor version changes nothing but the error that reports it.** -/
theorem decodeFrame_minor (b : Bytes) (x y : UInt8) :
    decodeFrame ((b.set 6 x).set 7 y) = withMinor (fromBe16 x y) (decodeFrame b) := by
  have hsize : ((b.set 6 x).set 7 y).length = b.length := by
    rw [List.length_set, List.length_set]
  by_cases hshort : b.length < headerLen
  · rw [decodeFrame, if_pos (hsize.trans_lt hshort), decodeFrame, if_pos hshort]
    rfl
  have hlen : headerLen ≤ b.length := Nat.not_lt.mp hshort
  have hlength : lengthField ((b.set 6 x).set 7 y) = lengthField b := by
    unfold lengthField
    simp (disch := decide) only [getD_minor]
  have hdrop : ((b.set 6 x).set 7 y).drop headerLen = b.drop headerLen := by
    rw [List.drop_set_of_lt (by decide), List.drop_set_of_lt (by decide)]
  rw [decodeFrame_of_header (hsize.symm ▸ hlen), decodeFrame_of_header hlen,
    decodeKind_minor hlen, hlength, hdrop]
  cases decodeKind b with
  | error e => cases e <;> rfl
  | ok kind => exact (withMinor_decodeBody _ kind _ _).symm

/-- **Every accepted frame has a canonical re-encoding.**  Whatever bytes
`decode_frame` accepts, the message satisfies all that its constructors demand;
it took the header and the declared length, which is at most the largest payload;
it encodes, in no more bytes than it took, to a frame that decodes to it again.
And the two bytes of the minor version matter only to the error that names
them. -/
theorem accepted_frame_canonical (b : Bytes) :
    (∀ m n, decodeFrame b = .ok (m, n) →
      m.WellFormed ∧ n = headerLen + lengthField b ∧ n ≤ headerLen + maxFrameBytes ∧
        ∃ f, encodeFrame m = .ok f ∧ f.length ≤ n ∧ decodeFrame f = .ok (m, f.length)) ∧
      ∀ x y, decodeFrame ((b.set 6 x).set 7 y) = withMinor (fromBe16 x y) (decodeFrame b) := by
  refine ⟨fun m n h => ?_, fun x y => decodeFrame_minor b x y⟩
  obtain ⟨rfl, hle, -, hpayload⟩ := decodeFrame_eq_ok h
  refine ⟨m.wellFormed, rfl, Nat.add_le_add_left hle headerLen, m.frame, encodeFrame_frame m,
    ?_, ?_⟩
  · rw [Message.frame, List.length_append, length_frameHeader]
    exact Nat.add_le_add_left hpayload headerLen
  · have hframe := decodeFrame_frame (encodeFrame_frame m) []
    rwa [List.append_nil] at hframe

/-- A `Ping` of minor version 7.7 whose nonce is written in two bytes. -/
def overlongPing : Bytes :=
  [0x45, 0x54, 0x55, 0x4E, 0, 1, 7, 7, 0, 10, 0, 0, 0, 2, 0x89, 0]

theorem accepted_frame_canonical_ping :
    decodeFrame overlongPing = .ok (.ping ⟨9⟩, 16) ∧
      (∃ f, encodeFrame (.ping ⟨9⟩) = .ok f ∧ f.length ≤ 16 ∧
        decodeFrame f = .ok (.ping ⟨9⟩, f.length)) ∧
      decodeFrame ((overlongPing.set 6 0).set 7 1) = .ok (.ping ⟨9⟩, 16) := by
  have hping : decodeFrame overlongPing = .ok (.ping ⟨9⟩, 16) := by decide
  obtain ⟨haccepted, hminor⟩ := accepted_frame_canonical overlongPing
  refine ⟨hping, (haccepted _ _ hping).2.2.2, ?_⟩
  rw [hminor, hping]
  rfl

end Eggtunnel
