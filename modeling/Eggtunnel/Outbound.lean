/-
Eggtunnel/Outbound.lean

Control writes under a budget, and what they put on the stream.

Every control write of client and server is `write_message` raced with a
timeout.  The transport decides how it ends (`WriteOutcome`): the whole frame
is accepted, the transport fails, or the budget expires after some of the
bytes, in which case the dropped `write_all` leaves a proper prefix behind.
-/
import Eggtunnel.Frame
import Eggtunnel.Common

namespace Eggtunnel

/-- `std::io::ErrorKind`, as far as `io_error` looks at it. -/
inductive IoErrorKind
  | unexpectedEof | other
  deriving DecidableEq, Repr

/-- `wire_io::io_error`. -/
def ioError : IoErrorKind → TunnelError
  | .unexpectedEof => .protocol .truncatedFrame
  | .other => .io

/-- How the transport ends one write: everything accepted, a failure or an
expired budget after `accepted` bytes. -/
inductive WriteOutcome
  | done
  | failed (accepted : Nat) (kind : IoErrorKind)
  | cut (accepted : Nat)
  deriving DecidableEq, Repr

/-- `timeout(budget, write_message(..))`, with an expired budget as `Timeout`. -/
def writeBudgeted (m : Message) (o : WriteOutcome) : Except TunnelError Unit :=
  match encodeFrame m with
  | .error e => .error (.protocol e)
  | .ok _ =>
      match o with
      | .done => .ok ()
      | .failed _ kind => .error (ioError kind)
      | .cut _ => .error .timeout

/-- The client's `write_control`. -/
def writeControl : Message → WriteOutcome → Except TunnelError Unit := writeBudgeted

/-- The client's `handshake_write`. -/
def handshakeWrite : Message → WriteOutcome → Except TunnelError Unit := writeBudgeted

/-- The server's `write_bounded`. -/
def writeBounded : Message → WriteOutcome → Except TunnelError Unit := writeBudgeted

/-- A write fails only by its outcome: every message has a frame. -/
theorem writeBudgeted_eq (m : Message) (o : WriteOutcome) :
    writeBudgeted m o = match o with
      | .done => .ok ()
      | .failed _ kind => .error (ioError kind)
      | .cut _ => .error .timeout := by
  rw [writeBudgeted.eq_def, encodeFrame_frame]

@[simp] theorem writeBudgeted_done (m : Message) : writeBudgeted m .done = .ok () := by
  rw [writeBudgeted_eq]

@[simp] theorem writeBudgeted_cut (m : Message) (n : Nat) :
    writeBudgeted m (.cut n) = .error .timeout := by
  rw [writeBudgeted_eq]

@[simp] theorem writeBudgeted_failed (m : Message) (n : Nat) (kind : IoErrorKind) :
    writeBudgeted m (.failed n kind) = .error (ioError kind) := by
  rw [writeBudgeted_eq]

theorem writeBudgeted_eq_ok {m : Message} {o : WriteOutcome} (h : writeBudgeted m o = .ok ()) :
    o = .done := by
  cases o with
  | done => rfl
  | failed accepted kind | cut accepted => simp at h

/-- One write: the message and how the transport ended it. -/
abbrev Write := Message × WriteOutcome

/-! ### The bytes on the stream -/

/-- The write did not complete. -/
def WriteOutcome.short (o : WriteOutcome) : Bool := o != .done

/-- The write did not complete, but some of its bytes were accepted. -/
def WriteOutcome.torn : WriteOutcome → Bool
  | .done => false
  | .failed accepted _ => accepted != 0
  | .cut accepted => accepted != 0

/-- What one write leaves on the stream. -/
def Write.bytes : Write → Bytes
  | (m, .done) => m.frame
  | (m, .failed accepted _) => m.frame.take accepted
  | (m, .cut accepted) => m.frame.take accepted

/-- What a sequence of writes leaves on the stream. -/
def stream (ws : List Write) : Bytes := ws.flatMap Write.bytes

/-- Complete frames, then at most one incomplete one. -/
def Framed (bytes : Bytes) : Prop :=
  ∃ (ms : List Message) (last : Message) (n : Nat),
    bytes = ms.flatMap Message.frame ++ last.frame.take n

/-- Only the last write may have ended in one of the ways `bad`. -/
def Unbroken (bad : WriteOutcome → Bool) (ws : List Write) : Prop :=
  ∀ w ∈ ws.dropLast, bad w.2 = false

theorem WriteOutcome.torn_of_short {o : WriteOutcome} (h : o.short = false) : o.torn = false := by
  cases o with
  | done => rfl
  | failed accepted kind | cut accepted => cases h

/-- A write that is not torn leaves its whole frame, or nothing. -/
theorem Write.bytes_of_not_torn {w : Write} (h : w.2.torn = false) :
    w.bytes = w.1.frame ∨ w.bytes = [] := by
  obtain ⟨m, o⟩ := w
  cases o with
  | done => exact .inl rfl
  | failed accepted kind | cut accepted =>
      simp only [WriteOutcome.torn, bne_eq_false_iff_eq] at h
      subst h
      exact .inr rfl

theorem Write.bytes_eq_take (w : Write) : ∃ n, w.bytes = w.1.frame.take n := by
  obtain ⟨m, o⟩ := w
  cases o with
  | done => exact ⟨m.frame.length, List.take_length.symm⟩
  | failed accepted kind | cut accepted => exact ⟨accepted, rfl⟩

theorem stream_of_not_torn {ws : List Write} (h : ∀ w ∈ ws, w.2.torn = false) :
    ∃ ms : List Message, stream ws = ms.flatMap Message.frame := by
  induction ws with
  | nil => exact ⟨[], rfl⟩
  | cons w ws ih =>
      obtain ⟨ms, hms⟩ := ih fun w' hw' => h w' (List.mem_cons_of_mem _ hw')
      have hcons : stream (w :: ws) = w.bytes ++ stream ws := List.flatMap_cons
      rw [hcons, hms]
      rcases Write.bytes_of_not_torn (h w List.mem_cons_self) with hw | hw
      · exact ⟨w.1 :: ms, by rw [hw, List.flatMap_cons]⟩
      · exact ⟨ms, by rw [hw, List.nil_append]⟩

/-- **Writes that stop at the first torn one leave a framed stream.** -/
theorem framed_of_unbroken {ws : List Write} (h : Unbroken WriteOutcome.torn ws) : Framed (stream ws) := by
  rcases List.eq_nil_or_concat ws with rfl | ⟨init, w, rfl⟩
  · exact ⟨[], .ping ⟨0⟩, 0, rfl⟩
  · rw [List.concat_eq_append] at h ⊢
    unfold Unbroken at h
    rw [List.dropLast_concat] at h
    obtain ⟨ms, hms⟩ := stream_of_not_torn h
    obtain ⟨n, hn⟩ := w.bytes_eq_take
    refine ⟨ms, w.1, n, ?_⟩
    rw [stream, List.flatMap_append, ← stream, hms, List.flatMap_singleton, hn]

/-! ### Writers that stop

The invariant of a writer that goes on only after a write that did not end
badly. -/

section Sealed

variable {bad : WriteOutcome → Bool} {isOpen isOpen' : Bool} {ws writes : List Write}

/-- No write has ended badly, or only the last one has and the writer stopped. -/
def Sealed (bad : WriteOutcome → Bool) (isOpen : Bool) (ws : List Write) : Prop :=
  (∀ w ∈ ws, bad w.2 = false) ∨ isOpen = false ∧ Unbroken bad ws

theorem Sealed.nil : Sealed bad isOpen [] := .inl (by simp)

theorem Sealed.unbroken (h : Sealed bad isOpen ws) : Unbroken bad ws := by
  rcases h with hall | ⟨-, h⟩
  · exact fun w hw => hall w (List.dropLast_subset ws hw)
  · exact h

/-- **The rule for one more step of the writer.** -/
theorem Sealed.append (h : Sealed bad isOpen ws) (hopen : isOpen' = true → isOpen = true)
    (hwrites : writes = [] ∨
      isOpen = true ∧ ∃ w, writes = [w] ∧ (bad w.2 = false ∨ isOpen' = false)) :
    Sealed bad isOpen' (ws ++ writes) := by
  rcases hwrites with rfl | ⟨hwriting, w, rfl, hw⟩
  · rw [List.append_nil]
    refine h.imp_right fun ⟨hclosed, hunbroken⟩ => ⟨?_, hunbroken⟩
    rw [← Bool.not_eq_true]
    intro hopen'
    rw [hopen hopen'] at hclosed
    cases hclosed
  · -- an open writer has had no bad write yet
    have hall : ∀ w ∈ ws, bad w.2 = false := by
      rcases h with hall | ⟨hclosed, -⟩
      · exact hall
      · rw [hwriting] at hclosed
        cases hclosed
    rcases hw with hw | hclosed
    · refine .inl fun w' hw' => ?_
      rcases List.mem_append.mp hw' with hw' | hw'
      · exact hall w' hw'
      · rw [List.mem_singleton.mp hw']
        exact hw
    · refine .inr ⟨hclosed, ?_⟩
      unfold Unbroken
      rwa [List.dropLast_concat]

end Sealed

/-! ### Queued frames -/

/-- The frames the client queues for itself. -/
def Message.isChatter : Message → Bool
  | .ping _ | .pong _ | .openReject _ => true
  | _ => false

/-- The frames the server sends unasked. -/
def Message.isNotice : Message → Bool
  | .open _ | .drain _ => true
  | _ => false

end Eggtunnel
