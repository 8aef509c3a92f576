/-
Eggtunnel/ReadLoop.lean

`read_message` as the future the select loops poll, and the loops' framing.

`read_message` keeps the part of a frame it has taken from the stream in its
own locals.  Both select loops create a fresh `read_message` future in every
iteration and drop it when another branch wins, so the bytes it had taken go
with it.  The model makes that explicit:

* `ReadFuture` is where an unfinished call stands, `ReadFuture.poll` one poll
  of it against the bytes that have arrived;
* `ReadLoop` is a select loop seen from its read branch: bytes arrive, the
  read branch is polled, or another branch completes.

`poll_frame` and `poll_partial` say what one poll does to a well-formed frame
in any state of the future; from them `framing_of_whole_reads` carries the
framing over every schedule in which no other branch completes while the
read future holds part of a frame.
-/
import Eggtunnel.Run
import Eggtunnel.Frame
import Eggtunnel.Common

namespace Eggtunnel

/-! ### The read future -/

/-- What the stream says once its available bytes are used up: nothing yet,
end of stream, or a transport failure. -/
inductive StreamTail
  | more | eof | failed
  deriving DecidableEq, Repr

/-- An unfinished `read_message`: inside `read_exact` of the header, or inside
`read_to_end` of the `len` payload bytes. -/
inductive ReadFuture
  | header (got : Bytes)
  | body (header : Bytes) (len : Nat) (got : Bytes)
  deriving DecidableEq, Repr

namespace ReadFuture

/-- A call that has not taken anything yet. -/
def start : ReadFuture := .header []

/-- The bytes the future has taken from the stream. -/
def taken : ReadFuture → Bytes
  | .header got => got
  | .body head _ got => head ++ got

@[simp] theorem taken_start : start.taken = [] := rfl

end ReadFuture

/-- One poll: still pending, or finished with the bytes it left unread. -/
inductive Polled
  | pending (f : ReadFuture)
  | ready (r : Except TunnelError Message) (rest : Bytes)
  deriving DecidableEq

/-- The end of `read_message`: decode the assembled frame. -/
def finishRead (header payload : Bytes) : Except TunnelError Message :=
  match decodeFrame (header ++ payload) with
  | .error e => .error (.protocol e)
  | .ok (m, consumed) =>
      if consumed ≠ (header ++ payload).length then .error (.protocol .invalidPayload)
      else .ok m

/-- `take(len).read_to_end` with `got` already buffered. -/
def pollBody (tail : StreamTail) (header : Bytes) (len : Nat) (got avail : Bytes) : Polled :=
  let need := len - got.length
  if avail.length < need then
    match tail with
    | .more => .pending (.body header len (got ++ avail))
    | .eof => .ready (.error (.protocol .truncatedFrame)) []
    | .failed => .ready (.error .io) []
  else .ready (finishRead header (got ++ avail.take need)) (avail.drop need)

/-- One poll of `read_message` against the bytes that have arrived. -/
def ReadFuture.poll (tail : StreamTail) : ReadFuture → Bytes → Polled
  | .header got, avail =>
      let need := headerLen - got.length
      if avail.length < need then
        match tail with
        | .more => .pending (.header (got ++ avail))
        | .eof => .ready (.error (.protocol .truncatedFrame)) []
        | .failed => .ready (.error .io) []
      else
        let header := got ++ avail.take need
        let rest := avail.drop need
        match decodeFrame header with
        | .error .truncatedFrame =>
            let len := fromBe32 (header.getD 10 0) (header.getD 11 0) (header.getD 12 0)
              (header.getD 13 0)
            if maxFrameBytes < len then .ready (.error (.protocol .frameTooLarge)) rest
            else pollBody tail header len [] rest
        | .error e => .ready (.error (.protocol e)) rest
        -- a header that decodes to a complete frame is never trusted
        | .ok _ => .ready (.error (.protocol .invalidPayload)) rest
  | .body head len got, avail => pollBody tail head len got avail

/-! ### One poll over a well-formed frame -/

/-- The state of a future that has taken the part `p` of the frame `f`. -/
def futureAt (f p : Bytes) : ReadFuture :=
  if p.length < headerLen then .header p
  else .body (p.take headerLen) (f.length - headerLen) (p.drop headerLen)

theorem taken_futureAt (f p : Bytes) : (futureAt f p).taken = p := by
  unfold futureAt
  split_ifs
  · rfl
  · exact List.take_append_drop headerLen p

/-- Reading on from `got` up to `n` bytes gives the first `n` bytes of both. -/
theorem append_take_sub {got avail : Bytes} {n : Nat} (h : got.length ≤ n) :
    got ++ avail.take (n - got.length) = (got ++ avail).take n := by
  rw [List.take_append, List.take_of_length_le h]

theorem drop_sub {got avail : Bytes} {n : Nat} (h : got.length ≤ n) :
    avail.drop (n - got.length) = (got ++ avail).drop n := by
  rw [List.drop_append, List.drop_eq_nil_of_le h, List.nil_append]

theorem pollBody_partial {head got avail : Bytes} {len : Nat}
    (h : (got ++ avail).length < len) :
    pollBody .more head len got avail = .pending (.body head len (got ++ avail)) := by
  rw [List.length_append] at h
  rw [pollBody, if_pos (by omega)]

theorem pollBody_complete {head got avail payload rest : Bytes}
    (hgot : got.length ≤ payload.length) (h : got ++ avail = payload ++ rest) (tail : StreamTail) :
    pollBody tail head payload.length got avail = .ready (finishRead head payload) rest := by
  have hlen := congrArg List.length h
  rw [List.length_append, List.length_append] at hlen
  unfold pollBody
  dsimp only
  rw [if_neg (by omega), append_take_sub hgot, drop_sub hgot, h, List.take_left,
    List.drop_left]

variable {m : Message} {f : Bytes}

theorem finishRead_frame (h : encodeFrame m = .ok f) :
    finishRead (frameHeader m.kind m.payload.length) m.payload = .ok m := by
  obtain ⟨-, rfl⟩ := encodeFrame_eq_ok h
  have hd := decodeFrame_frame h []
  rw [List.append_nil] at hd
  rw [finishRead, hd]
  simp

/-- Past the header the call goes on with the payload. -/
theorem poll_header_frame (h : encodeFrame m = .ok f) {p avail body : Bytes}
    (hp : p.length < headerLen)
    (heq : p ++ avail = frameHeader m.kind m.payload.length ++ body) (tail : StreamTail) :
    (ReadFuture.header p).poll tail avail
      = pollBody tail (frameHeader m.kind m.payload.length) m.payload.length [] body := by
  obtain ⟨hle, -⟩ := encodeFrame_eq_ok h
  have hlen := congrArg List.length heq
  rw [List.length_append, List.length_append, length_frameHeader] at hlen
  have htake : (p ++ avail).take headerLen = frameHeader m.kind m.payload.length := by
    rw [heq, List.take_left' (length_frameHeader _ _)]
  have hdrop : (p ++ avail).drop headerLen = body := by
    rw [heq, List.drop_left' (length_frameHeader _ _)]
  unfold ReadFuture.poll
  dsimp only
  rw [if_neg (by omega), append_take_sub hp.le, drop_sub hp.le, htake, hdrop,
    decodeFrame_bare_header hle]
  dsimp only
  rw [fromBe32_frameHeader _ hle, if_neg (by omega)]

/-- **A poll that has the rest of the frame finishes it**, and leaves what
follows. -/
theorem poll_frame (h : encodeFrame m = .ok f) {p avail rest : Bytes}
    (hp : p.length < f.length) (heq : p ++ avail = f ++ rest) (tail : StreamTail) :
    (futureAt f p).poll tail avail = .ready (.ok m) rest := by
  have hfin := finishRead_frame h
  obtain ⟨-, hf⟩ := encodeFrame_eq_ok h
  rw [hf, List.append_assoc] at heq
  have hflen : f.length = headerLen + m.payload.length := by
    rw [hf, List.length_append, length_frameHeader]
  unfold futureAt
  split_ifs with hshort
  · rw [poll_header_frame h hshort heq, pollBody_complete (Nat.zero_le _) (List.nil_append _), hfin]
  · have hhead : p.take headerLen = frameHeader m.kind m.payload.length := by
      have := congrArg (List.take headerLen) heq
      rwa [List.take_append_of_le_length (by omega),
        List.take_left' (length_frameHeader _ _)] at this
    have hbody : p.drop headerLen ++ avail = m.payload ++ rest := by
      have := congrArg (List.drop headerLen) heq
      rwa [List.drop_append_of_le_length (by omega),
        List.drop_left' (length_frameHeader _ _)] at this
    rw [ReadFuture.poll, hflen, Nat.add_sub_cancel_left, hhead,
      pollBody_complete (by rw [List.length_drop]; omega) hbody, hfin]

/-- **A poll short of the frame's end stays pending**, holding what it took. -/
theorem poll_partial (h : encodeFrame m = .ok f) {p avail : Bytes}
    (hpre : p ++ avail <+: f) (hlt : (p ++ avail).length < f.length) :
    (futureAt f p).poll .more avail = .pending (futureAt f (p ++ avail)) := by
  obtain ⟨-, hf⟩ := encodeFrame_eq_ok h
  have hflen : f.length = headerLen + m.payload.length := by
    rw [hf, List.length_append, length_frameHeader]
  have happ : (p ++ avail).length = p.length + avail.length := List.length_append
  by_cases hshort : p.length < headerLen
  · rw [show futureAt f p = .header p from if_pos hshort]
    by_cases hq : (p ++ avail).length < headerLen
    · rw [ReadFuture.poll, if_pos (by omega), futureAt, if_pos hq]
    · -- the header is complete, the payload is not
      have htake : (p ++ avail).take headerLen = frameHeader m.kind m.payload.length := by
        rw [List.prefix_iff_eq_take.mp hpre, hf, List.take_take, min_eq_left (by omega),
          List.take_left' (length_frameHeader _ _)]
      have hsplit := (List.take_append_drop headerLen (p ++ avail)).symm
      have hlen := congrArg List.length hsplit
      rw [htake] at hsplit
      rw [poll_header_frame h hshort hsplit, pollBody_partial, futureAt, if_neg hq, htake, hflen,
        Nat.add_sub_cancel_left, List.nil_append]
      rw [List.nil_append, List.length_drop]
      omega
  · have hnot : ¬ (p ++ avail).length < headerLen := by omega
    rw [show futureAt f p = .body (p.take headerLen) (f.length - headerLen) (p.drop headerLen)
      from if_neg hshort]
    rw [ReadFuture.poll, pollBody_partial, futureAt, if_neg hnot,
      List.take_append_of_le_length (by omega), List.drop_append_of_le_length (by omega)]
    rw [List.length_append, List.length_drop]
    omega

/-! ### The select loops, seen from their read branch -/

/-- The other branches of the client Session loop that let it go on. -/
inductive ClientBranch
  | heartbeatTick | registrationDeadline | outbound | command | openFinished
  deriving DecidableEq, Repr

/-- The other branches of the server control loop that let it go on. -/
inductive ServerBranch
  | outbound | childFinished
  deriving DecidableEq, Repr

/-- A select loop's view of its control stream.  `received` records everything
that has arrived; no step reads it. -/
structure ReadLoop where
  stream : Bytes
  future : ReadFuture
  delivered : List (Except TunnelError Message)
  received : Bytes
  deriving DecidableEq

/-- What can happen around a `read_message` in a `select!`. -/
inductive ReadEvent (β : Type)
  /-- bytes arrive on the stream -/
  | arrive (chunk : Bytes)
  /-- `select!` polls the `read_message` branch -/
  | poll
  /-- another branch completes; `select!` drops the read future -/
  | other (branch : β)
  deriving DecidableEq

namespace ReadLoop

/-- Nothing has arrived. -/
def init : ReadLoop := ⟨[], .start, [], []⟩

/-- The loop returns at the first failed read. -/
def failed (s : ReadLoop) : Bool :=
  s.delivered.any fun r => match r with
    | .error _ => true
    | .ok _ => false

/-- One turn of the loop. -/
def step {β : Type} (s : ReadLoop) (e : ReadEvent β) : Option ReadLoop :=
  if s.failed then none
  else match e with
    | .arrive chunk =>
        some { s with stream := s.stream ++ chunk, received := s.received ++ chunk }
    | .poll =>
        match s.future.poll .more s.stream with
        | .pending f => some { s with stream := [], future := f }
        | .ready r rest =>
            some { s with stream := rest, future := .start, delivered := s.delivered ++ [r] }
    | .other _ => some { s with future := .start }

/-- What the loop was promised: the messages handed to it are the first `k`
sent ones, and once every byte that arrived has been polled, `k` is the number
of frames that arrived completely. -/
def FramingKept (msgs : List Message) (frames : List Bytes) (s : ReadLoop) : Prop :=
  ∃ k, s.delivered = (msgs.take k).map .ok ∧
    (s.stream = [] → ∀ j ≤ frames.length, (frames.take j).flatten <+: s.received → j ≤ k)

/-- No other branch completes while the read future holds part of a frame. -/
def WholeReads {β : Type} (s : ReadLoop) : ReadEvent β → Prop
  | .other _ => s.future.taken = []
  | _ => True

instance {β : Type} (s : ReadLoop) (e : ReadEvent β) : Decidable (WholeReads s e) := by
  cases e <;> unfold WholeReads <;> infer_instance

/-- The future has taken a proper part of the next frame, if there is one. -/
def HoldsPart : List Bytes → ReadFuture → Prop
  | [], fut => fut = .start
  | f :: _, fut => ∃ p, fut = futureAt f p ∧ p.length < f.length

/-- The frames of some messages, in order. -/
def Encoded : List Message → List Bytes → Prop :=
  List.Forall₂ fun m f => encodeFrame m = .ok f

/-- The invariant: the received bytes are the frames handed over, then what
the future holds, then what is still in the stream. -/
structure Framed (msgs : List Message) (frames : List Bytes) (s : ReadLoop) : Prop where
  split : ∃ done todo fdone ftodo, msgs = done ++ todo ∧ frames = fdone ++ ftodo ∧
    done.length = fdone.length ∧ Encoded todo ftodo ∧ s.delivered = done.map .ok ∧
    s.received = fdone.flatten ++ (s.future.taken ++ s.stream) ∧ HoldsPart ftodo s.future

variable {β : Type} {msgs : List Message} {frames : List Bytes} {s t : ReadLoop}

/-- A fresh future stands before the next frame. -/
theorem holdsPart_start (h : Encoded msgs frames) : HoldsPart frames .start := by
  cases h with
  | nil => rfl
  | @cons m f _ _ hm _ =>
      obtain ⟨-, rfl⟩ := encodeFrame_eq_ok hm
      exact ⟨[], rfl, by simp [length_frameHeader, headerLen]⟩

theorem framed_init (hsent : Encoded msgs frames) : Framed msgs frames init :=
  ⟨[], msgs, [], frames, rfl, rfl, rfl, hsent, rfl, rfl, holdsPart_start hsent⟩

theorem not_failed_of_framed (h : Framed msgs frames s) : s.failed = false := by
  obtain ⟨done, todo, fdone, ftodo, -, -, -, -, hd, -⟩ := h.split
  simp [failed, hd]

theorem framed_arrive (h : Framed msgs frames s) (chunk : Bytes) :
    Framed msgs frames
      { s with stream := s.stream ++ chunk, received := s.received ++ chunk } := by
  obtain ⟨done, todo, fdone, ftodo, h1, h2, h3, h4, h5, h6, h7⟩ := h.split
  exact ⟨done, todo, fdone, ftodo, h1, h2, h3, h4, h5, by simp [h6], h7⟩

/-- Dropping a future that has taken nothing loses nothing. -/
theorem framed_other (h : Framed msgs frames s) (hnone : s.future.taken = []) :
    Framed msgs frames { s with future := .start } := by
  obtain ⟨done, todo, fdone, ftodo, h1, h2, h3, h4, h5, h6, h7⟩ := h.split
  exact ⟨done, todo, fdone, ftodo, h1, h2, h3, h4, h5, by simpa [hnone] using h6,
    holdsPart_start h4⟩

/-- **One poll keeps the framing**: the frame in progress is finished or
continued, never split. -/
theorem framed_poll (h : Framed msgs frames s) (hrecv : s.received <+: frames.flatten)
    (hs : step (β := β) s .poll = some t) : Framed msgs frames t := by
  have hok := not_failed_of_framed h
  obtain ⟨done, todo, fdone, ftodo, h1, h2, h3, h4, h5, h6, h7⟩ := h.split
  rw [step, hok] at hs
  simp only [Bool.false_eq_true, if_false] at hs
  -- what the future and the stream hold is a prefix of the frames still to come
  have hpre : s.future.taken ++ s.stream <+: ftodo.flatten := by
    rw [h6, h2, List.flatten_append] at hrecv
    exact (List.prefix_append_right_inj _).mp hrecv
  cases h4 with
  | nil =>
      have hfut : s.future = .start := h7
      have hnil : s.stream = [] := by
        rw [List.flatten_nil, List.prefix_nil] at hpre
        exact (List.append_eq_nil_iff.mp hpre).2
      have hp : s.future.poll .more s.stream = .pending .start := by
        rw [hfut, hnil]
        rfl
      rw [hp] at hs
      obtain rfl := Option.some.inj hs
      exact ⟨done, [], fdone, [], h1, h2, h3, .nil, h5, by simp [h6, hfut, hnil], rfl⟩
  | @cons m f todo ftodo hm hrest =>
      obtain ⟨p, hfut, hplt⟩ := h7
      rw [hfut, taken_futureAt, List.flatten_cons] at hpre
      by_cases hlt : (p ++ s.stream).length < f.length
      · -- the frame is still incomplete
        have hpf : p ++ s.stream <+: f :=
          List.prefix_of_prefix_length_le hpre (List.prefix_append _ _) hlt.le
        rw [hfut, poll_partial hm hpf hlt] at hs
        obtain rfl := Option.some.inj hs
        refine ⟨done, m :: todo, fdone, f :: ftodo, h1, h2, h3, .cons hm hrest, h5, ?_,
          _, rfl, hlt⟩
        simp [h6, hfut, taken_futureAt]
      · -- the frame is complete
        obtain ⟨rest, hr⟩ : f <+: p ++ s.stream :=
          List.prefix_of_prefix_length_le (List.prefix_append _ _) hpre (by omega)
        rw [hfut, poll_frame hm hplt hr.symm] at hs
        obtain rfl := Option.some.inj hs
        refine ⟨done ++ [m], todo, fdone ++ [f], ftodo, by simp [h1], by simp [h2], by simp [h3],
          hrest, by simp [h5], ?_, holdsPart_start hrest⟩
        simp only [h6, hfut, taken_futureAt, List.flatten_append, List.flatten_singleton,
          List.append_assoc]
        rw [← hr]
        rfl

/-- Every step that drops no part of a frame keeps the framing, as long as the
received bytes are a prefix of the frames. -/
theorem framed_step {e : ReadEvent β}
    (h : s.received <+: frames.flatten → Framed msgs frames s) (hw : WholeReads s e)
    (hs : step s e = some t) (hrecv : t.received <+: frames.flatten) :
    Framed msgs frames t := by
  cases e with
  | arrive chunk =>
      unfold step at hs
      split_ifs at hs
      obtain rfl := Option.some.inj hs
      exact framed_arrive (h ((List.prefix_append _ _).trans hrecv)) chunk
  | poll =>
      have hrs : t.received = s.received := by
        unfold step at hs
        split_ifs at hs
        dsimp only at hs
        split at hs <;> (obtain rfl := Option.some.inj hs; rfl)
      rw [hrs] at hrecv
      exact framed_poll (h hrecv) hrecv hs
  | other b =>
      unfold step at hs
      split_ifs at hs
      obtain rfl := Option.some.inj hs
      exact framed_other (h hrecv) hw

/-- A framed loop has kept its promise. -/
theorem framingKept_of_framed (h : Framed msgs frames s) : FramingKept msgs frames s := by
  obtain ⟨done, todo, fdone, ftodo, rfl, rfl, hlen, h4, h5, h6, h7⟩ := h.split
  refine ⟨done.length, by rw [List.take_left, h5], ?_⟩
  intro hnil j hj hpre
  by_contra hlt
  rw [not_le, hlen] at hlt
  -- a further frame would be longer than the part of it that has arrived
  cases ftodo with
  | nil => simp at hj; omega
  | cons f fs =>
      obtain ⟨p, hfut, hp⟩ := h7
      have htake : (fdone ++ [f]).flatten <+: ((fdone ++ f :: fs).take j).flatten := by
        obtain ⟨i, rfl⟩ := Nat.exists_eq_add_of_lt hlt
        refine ⟨(fs.take i).flatten, ?_⟩
        rw [show fdone.length + i + 1 = fdone.length + (i + 1) by omega, List.take_length_add_append]
        simp
      have hle := (htake.trans hpre).length_le
      rw [h6, hfut, taken_futureAt, hnil] at hle
      simp at hle
      omega

/-- **Framing under whole reads.**  In every schedule of arrivals, polls and
other branches in which no other branch completes while the read future holds
part of a frame, the messages handed to the loop are exactly the sent ones, in
order, and no read fails. -/
theorem framing_of_whole_reads (hsent : Encoded msgs frames) (es : List (ReadEvent β))
    (hwhole : AllSteps step WholeReads init es) (hrun : exec step init es = some s)
    (hrecv : s.received <+: frames.flatten) : FramingKept msgs frames s := by
  have hframed : s.received <+: frames.flatten → Framed msgs frames s :=
    exec_inv (fun _ _ _ hi hw hs => framed_step hi hw hs) (fun _ => framed_init hsent)
      hwhole hrun
  exact framingKept_of_framed (hframed hrecv)

/-- The frame of `Ping { nonce: 9 }`. -/
def pingFrame : Bytes :=
  [0x45, 0x54, 0x55, 0x4E, 0, 1, 0, 1, 0, 10, 0, 0, 0, 1, 9]

theorem encodeFrame_ping : encodeFrame (.ping ⟨9⟩) = .ok pingFrame := rfl

/-- A frame that arrives in two chunks, and a heartbeat tick after it. -/
theorem framing_of_split_ping :
    FramingKept [.ping ⟨9⟩] [pingFrame]
      ⟨[], .start, [.ok (.ping ⟨9⟩)], pingFrame⟩ :=
  framing_of_whole_reads (.cons encodeFrame_ping .nil)
    [.arrive (pingFrame.take 5), .poll, .arrive (pingFrame.drop 5), .poll,
      .other ClientBranch.heartbeatTick]
    (by decide +kernel) (by decide +kernel) (by decide)

/-- The same frame with another branch between its two chunks: the five bytes
the dropped future had taken are gone, and the rest is read as a header. -/
theorem not_framingKept_of_mid_frame (b : β) :
    ¬ ∀ (msgs : List Message) (frames : List Bytes) (es : List (ReadEvent β)) (s : ReadLoop),
      Encoded msgs frames → exec step init es = some s →
      s.received <+: frames.flatten → FramingKept msgs frames s := by
  intro h
  obtain ⟨k, hk, -⟩ := h [.ping ⟨9⟩, .ping ⟨9⟩] [pingFrame, pingFrame]
    [.arrive (pingFrame.take 5), .poll, .other b,
      .arrive (pingFrame.drop 5 ++ pingFrame), .poll]
    ⟨pingFrame.drop 4, .start, [.error (.protocol .invalidMagic)], pingFrame ++ pingFrame⟩
    (.cons encodeFrame_ping (.cons encodeFrame_ping .nil)) (by rfl) (by decide)
  match k with
  | 0 => cases hk
  | 1 => cases hk
  | _ + 2 => cases hk

/-- Neither the client Session loop nor the server control loop keeps the
framing over every schedule. -/
theorem framing_lost_mid_frame :
    (¬ ∀ (msgs : List Message) (frames : List Bytes) (es : List (ReadEvent ClientBranch))
      (s : ReadLoop), Encoded msgs frames → exec step init es = some s →
      s.received <+: frames.flatten → FramingKept msgs frames s) ∧
    (¬ ∀ (msgs : List Message) (frames : List Bytes) (es : List (ReadEvent ServerBranch))
      (s : ReadLoop), Encoded msgs frames → exec step init es = some s →
      s.received <+: frames.flatten → FramingKept msgs frames s) :=
  ⟨not_framingKept_of_mid_frame .heartbeatTick, not_framingKept_of_mid_frame .outbound⟩

end ReadLoop

end Eggtunnel
