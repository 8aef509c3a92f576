/-
Eggtunnel/Quic.lean

`handle_quic_connection`: one QUIC connection and the tasks it owns.

The first stream of a connection is the control stream and has to begin with a
`ClientHello`; a task is spawned for it.  Every further stream is a data stream
and gets a task of its own if a permit is free.  The handler then waits for the
control task, for streams, for tasks that end, and for its token.

The handler can end in five ways, and they differ in what they leave behind:

* before the control task there is nothing to leave;
* when the token fires, the data tasks are aborted and joined, the connection is
  closed, the control task is aborted and awaited, and the handler returns;
* when the control task ends, the same happens up to the second await of its
  handle, whose output has been taken, and that is a panic;
* when the connection fails, the handler returns at once: the data tasks are
  aborted, and the control task is left to itself;
* when the handler is aborted by the shutdown, likewise.

`leaves_behind` says this of every run, and `comes_to_an_end` that the handler ends
once its token has fired.
-/
import Eggtunnel.Common
import Eggtunnel.Message
import Eggtunnel.Subside
import Eggtunnel.Table

namespace Eggtunnel

/-- How a task ended, as its `JoinHandle` tells. -/
inductive TaskEnd
  | returned (result : Except TunnelError Unit)
  | panicked
  | aborted
  deriving DecidableEq

/-- The task of a data stream, at its await. -/
inductive QuicTask
  /-- the first frame, under the handshake budget and raced with the token -/
  | reading
  /-- `accept_data_hello` -/
  | looking (hello : DataHello)
  /-- its permit is given back; it has not been joined yet -/
  | ended (how : TaskEnd)
  deriving DecidableEq

/-- The task holds its permit. -/
def QuicTask.runs : QuicTask → Bool
  | .ended _ => false
  | _ => true

/-- The task of `serve_control`. -/
inductive ControlTask
  | unborn
  | running
  | ended (how : TaskEnd)
  /-- its output has been taken from the handle -/
  | taken
  deriving DecidableEq

/-- The handler, at its await. -/
inductive QuicStage
  /-- `accept_stream` for the control stream -/
  | waiting
  /-- the first frame of it -/
  | reading
  /-- the select loop -/
  | serving
  /-- `streams.join_next()`, behind `abort_all` -/
  | joining
  /-- `control.await` -/
  | stopping
  | returned (result : Except TunnelError Unit)
  | panicked
  /-- aborted at one of its awaits -/
  | dropped
  deriving DecidableEq

/-- The handler has ended. -/
def QuicStage.over : QuicStage → Bool
  | .returned _ | .panicked | .dropped => true
  | _ => false

/-- One call of `handle_quic_connection`.  `cancelled` is its token, `closed` says that
the connection has been closed, `aborting` that the data tasks have been told to stop,
and `handed` is what `accept_data_hello` has been called with. -/
structure Quic where
  limit : Nat
  stage : QuicStage
  cancelled : Bool
  closed : Bool
  hello : Option ClientHello
  control : ControlTask
  tasks : Table Nat QuicTask
  aborting : Bool
  next : Nat
  free : Nat
  handed : List DataHello
  rejected : Nat
  taskPanics : Nat
  lastTermination : Option TerminationCategory

/-- What can happen to the handler and its tasks. -/
inductive QuicEvent
  /-- the token of the server fires -/
  | cancel
  /-- the handler's select takes its `cancelled()` branch -/
  | tokenSeen
  /-- the handshake budget of the handler is spent -/
  | elapsed
  | opened
  | openFailed
  | first (m : Message)
  | firstFailed (e : TunnelError)
  /-- a data stream -/
  | accepted
  | acceptFailed
  | controlEnds (how : TaskEnd)
  /-- the handler's select takes the output of the control task -/
  | controlSeen
  | read (i : Nat) (m : Message)
  /-- the read of a data task fails, or its budget is spent -/
  | readFailed (i : Nat) (e : TunnelError)
  | taskTokenSeen (i : Nat)
  | answered (i : Nat) (result : Except TunnelError Unit)
  | taskPanics (i : Nat)
  | taskAborted (i : Nat)
  | joined (i : Nat)
  /-- `join_next` finds no task -/
  | drained
  | finished
  /-- the handler is aborted by the shutdown -/
  | drop
  deriving DecidableEq

namespace Quic

/-- `max_active_data_streams` permits, and nothing else yet. -/
def init (limit : Nat) : Quic where
  limit
  stage := .waiting
  cancelled := false
  closed := false
  hello := none
  control := .unborn
  tasks := ∅
  aborting := false
  next := 0
  free := limit
  handed := []
  rejected := 0
  taskPanics := 0
  lastTermination := none

variable (s : Quic)

/-- The handler moves on. -/
def leave (stage : QuicStage) : Quic := { s with stage }

/-- Behind the loop: `connection_cancel.cancel()`, `close` and `abort_all`. -/
def close : Quic := { s with stage := .joining, cancelled := true, closed := true, aborting := true }

/-- The future is dropped with its locals: the tasks of a `JoinSet` are aborted, that
of a `JoinHandle` is not. -/
def abandon (stage : QuicStage) : Quic := { s with stage, aborting := true }

/-- A task ends and gives its permit back. -/
def endTask (i : Nat) (how : TaskEnd) : Quic :=
  { s with tasks := s.tasks.insert i (.ended how), free := s.free + 1 }

/-- `Counters::record_join_result`. -/
def recordJoinResult (how : TaskEnd) : Quic :=
  if how = .panicked then
    { s with taskPanics := s.taskPanics + 1, lastTermination := some .internal }
  else s

/-- What the loop records of the control task. -/
def recordControl (how : TaskEnd) : Quic :=
  match how with
  | .returned (.error e) => { s with lastTermination := some e.terminationCategory }
  | how => s.recordJoinResult how

/-- A step; a select branch or an await of one of the tasks. -/
def step : QuicEvent → Option Quic
  | .cancel => some { s with cancelled := true }
  | .tokenSeen =>
      match s.stage with
      | .waiting => if s.cancelled then some (s.leave (.returned (.error .cancelled))) else none
      | .serving => if s.cancelled then some s.close else none
      | _ => none
  | .elapsed =>
      match s.stage with
      | .waiting | .reading => some (s.leave (.returned (.error .timeout)))
      | _ => none
  | .opened => if s.stage = .waiting then some (s.leave .reading) else none
  | .openFailed =>
      if s.stage = .waiting then some (s.leave (.returned (.error .disconnected))) else none
  | .first m =>
      if s.stage = .reading then
        match m with
        | .clientHello hello =>
            some { s with stage := .serving, hello := some hello, control := .running }
        | _ => some ({ s with rejected := s.rejected + 1 }.leave
            (.returned (.error (.protocol .unexpectedMessage))))
      else none
  | .firstFailed e =>
      if s.stage = .reading then some (s.leave (.returned (.error e))) else none
  | .accepted =>
      if s.stage = .serving then
        if s.free = 0 then
          some { s with rejected := s.rejected + 1, lastTermination := some .resourceExhausted }
        else some { s with
          tasks := s.tasks.insert s.next .reading, next := s.next + 1, free := s.free - 1 }
      else none
  | .acceptFailed =>
      if s.stage = .serving then some (s.abandon (.returned (.error .disconnected))) else none
  | .controlEnds how =>
      -- the handler aborts it in its last await only
      if s.control = .running ∧ (how = .aborted → s.stage = .stopping) then
        some { s with control := .ended how }
      else none
  | .controlSeen =>
      match s.stage, s.control with
      | .serving, .ended how => some { (s.recordControl how).close with control := .taken }
      | _, _ => none
  | .read i m =>
      match s.tasks.lookup i with
      | some .reading =>
          match m with
          | .dataHello hello => some { s with
              tasks := s.tasks.insert i (.looking hello), handed := s.handed ++ [hello] }
          | _ => some ({ s with rejected := s.rejected + 1 }.endTask i
              (.returned (.error (.protocol .unexpectedMessage))))
      | _ => none
  | .readFailed i e =>
      match s.tasks.lookup i with
      | some .reading => some (s.endTask i (.returned (.error e)))
      | _ => none
  | .taskTokenSeen i =>
      match s.tasks.lookup i with
      | some .reading =>
          if s.cancelled then some (s.endTask i (.returned (.error .cancelled))) else none
      | _ => none
  | .answered i result =>
      match s.tasks.lookup i with
      | some (.looking _) => some (s.endTask i (.returned result))
      | _ => none
  | .taskPanics i =>
      match s.tasks.lookup i with
      | some task => if task.runs then some (s.endTask i .panicked) else none
      | none => none
  | .taskAborted i =>
      match s.tasks.lookup i with
      | some task => if task.runs ∧ s.aborting then some (s.endTask i .aborted) else none
      | none => none
  | .joined i =>
      match s.tasks.lookup i with
      | some (.ended how) =>
          if s.stage = .serving ∨ s.stage = .joining then
            some { s.recordJoinResult how with tasks := s.tasks.erase i }
          else none
      | _ => none
  | .drained => if s.stage = .joining ∧ s.tasks.size = 0 then some (s.leave .stopping) else none
  | .finished =>
      match s.stage, s.control with
      | .stopping, .ended _ => some { s with stage := .returned (.ok ()), control := .taken }
      -- the handle has been polled to its end once before
      | .stopping, .taken => some (s.leave .panicked)
      | _, _ => none
  | .drop => if s.stage.over then none else some (s.abandon .dropped)

/-! ### What a step does -/

variable {s} {t : Quic} {e : QuicEvent}

/-- They differ in their records at most. -/
structure Same (s t : Quic) : Prop where
  limit : t.limit = s.limit
  stage : t.stage = s.stage
  hello : t.hello = s.hello
  control : t.control = s.control
  tasks : t.tasks = s.tasks
  aborting : t.aborting = s.aborting
  closed : t.closed = s.closed
  cancelled : t.cancelled = s.cancelled
  next : t.next = s.next
  free : t.free = s.free
  handed : t.handed = s.handed

theorem Same.refl (s : Quic) : Same s s := ⟨rfl, rfl, rfl, rfl, rfl, rfl, rfl, rfl, rfl, rfl, rfl⟩

theorem same_recordJoinResult (s : Quic) (how : TaskEnd) : Same s (s.recordJoinResult how) := by
  unfold recordJoinResult
  split_ifs
  · exact ⟨rfl, rfl, rfl, rfl, rfl, rfl, rfl, rfl, rfl, rfl, rfl⟩
  · exact .refl s

theorem same_recordControl (s : Quic) (how : TaskEnd) : Same s (s.recordControl how) := by
  unfold recordControl
  split
  · exact ⟨rfl, rfl, rfl, rfl, rfl, rfl, rfl, rfl, rfl, rfl, rfl⟩
  · exact same_recordJoinResult s _

/-- What a step does, by what it is about.  A record made on the way is the difference
between `s` and `u`. -/
inductive Did (s : Quic) : QuicEvent → Quic → Prop
  | cancel : Did s .cancel { s with cancelled := true }
  | refused {e err u} (hsame : Same s u) (hearly : s.stage = .waiting ∨ s.stage = .reading)
      (hmoves : e ≠ .cancel ∧ e ≠ .accepted ∧ e ≠ .controlSeen) :
      Did s e (u.leave (.returned (.error err)))
  | opened (hwaiting : s.stage = .waiting) : Did s .opened (s.leave .reading)
  | spawned {hello} (hreading : s.stage = .reading) :
      Did s (.first (.clientHello hello))
        { s with stage := .serving, hello := some hello, control := .running }
  | turnedAway {u} (hserving : s.stage = .serving) (hsame : Same s u) : Did s .accepted u
  | admitted (hserving : s.stage = .serving) (hfree : s.free ≠ 0) :
      Did s .accepted { s with
        tasks := s.tasks.insert s.next .reading, next := s.next + 1, free := s.free - 1 }
  | lost (hserving : s.stage = .serving) :
      Did s .acceptFailed (s.abandon (.returned (.error .disconnected)))
  | stopped (hserving : s.stage = .serving) (hcancelled : s.cancelled = true) :
      Did s .tokenSeen s.close
  | controlEnded {how} (hrunning : s.control = .running) :
      Did s (.controlEnds how) { s with control := .ended how }
  | controlSeen {how u} (hserving : s.stage = .serving) (hcontrol : s.control = .ended how)
      (hsame : Same s u) : Did s .controlSeen { u.close with control := .taken }
  | looking {i hello} (htask : s.tasks.lookup i = some .reading) :
      Did s (.read i (.dataHello hello)) { s with
        tasks := s.tasks.insert i (.looking hello), handed := s.handed ++ [hello] }
  | taskEnded {e i task how u} (htask : s.tasks.lookup i = some task) (hruns : task.runs = true)
      (hsame : Same s u) (hmoves : e ≠ .cancel ∧ e ≠ .accepted ∧ e ≠ .controlSeen) :
      Did s e (u.endTask i how)
  | joined {i how u} (htask : s.tasks.lookup i = some (.ended how)) (hsame : Same s u) :
      Did s (.joined i) { u with tasks := s.tasks.erase i }
  | drained (hjoining : s.stage = .joining) (hempty : s.tasks = ∅) :
      Did s .drained (s.leave .stopping)
  | returned {how} (hstopping : s.stage = .stopping) (hcontrol : s.control = .ended how) :
      Did s .finished { s with stage := .returned (.ok ()), control := .taken }
  | panicked (hstopping : s.stage = .stopping) (hcontrol : s.control = .taken) :
      Did s .finished (s.leave .panicked)
  | dropped (hbusy : s.stage.over = false) : Did s .drop (s.abandon .dropped)

theorem did_of_step (h : s.step e = some t) : Did s e t := by
  have hrecord : ∀ n, Same s { s with rejected := n } := fun n =>
    ⟨rfl, rfl, rfl, rfl, rfl, rfl, rfl, rfl, rfl, rfl, rfl⟩
  cases e with
  | cancel =>
      cases h
      exact .cancel
  | tokenSeen =>
      simp only [step] at h
      split at h
      · split_ifs at h
        cases h
        exact .refused (.refl s) (.inl ‹_›) (by simp)
      · split_ifs at h with hcancelled
        cases h
        exact .stopped ‹_› hcancelled
      · cases h
  | elapsed =>
      simp only [step] at h
      split at h
      · cases h
        exact .refused (.refl s) (.inl ‹_›) (by simp)
      · cases h
        exact .refused (.refl s) (.inr ‹_›) (by simp)
      · cases h
  | opened =>
      simp only [step] at h
      split_ifs at h with hwaiting
      cases h
      exact .opened hwaiting
  | openFailed =>
      simp only [step] at h
      split_ifs at h with hwaiting
      cases h
      exact .refused (.refl s) (.inl hwaiting) (by simp)
  | first m =>
      simp only [step] at h
      split_ifs at h with hreading
      split at h
      · cases h
        exact .spawned hreading
      · cases h
        exact .refused (hrecord _) (.inr hreading) (by simp)
  | firstFailed err =>
      simp only [step] at h
      split_ifs at h with hreading
      cases h
      exact .refused (.refl s) (.inr hreading) (by simp)
  | accepted =>
      simp only [step] at h
      split_ifs at h with hserving hfree
      · cases h
        exact .turnedAway hserving ⟨rfl, rfl, rfl, rfl, rfl, rfl, rfl, rfl, rfl, rfl, rfl⟩
      · cases h
        exact .admitted hserving hfree
  | acceptFailed =>
      simp only [step] at h
      split_ifs at h with hserving
      cases h
      exact .lost hserving
  | controlEnds how =>
      simp only [step] at h
      split_ifs at h with hrunning
      cases h
      exact .controlEnded hrunning.1
  | controlSeen =>
      simp only [step] at h
      split at h
      · cases h
        exact .controlSeen ‹_› ‹_› (same_recordControl s _)
      · cases h
  | read i m =>
      simp only [step] at h
      split at h
      · rename_i htask
        split at h
        · cases h
          exact .looking htask
        · cases h
          exact .taskEnded htask rfl (hrecord _) (by simp)
      · cases h
  | readFailed i err | answered i result =>
      simp only [step] at h
      split at h
      · cases h
        exact .taskEnded ‹_› rfl (.refl s) (by simp)
      · cases h
  | taskTokenSeen i =>
      simp only [step] at h
      split at h
      · split_ifs at h
        cases h
        exact .taskEnded ‹_› rfl (.refl s) (by simp)
      · cases h
  | taskPanics i =>
      simp only [step] at h
      split at h
      · split_ifs at h with hruns
        cases h
        exact .taskEnded ‹_› hruns (.refl s) (by simp)
      · cases h
  | taskAborted i =>
      simp only [step] at h
      split at h
      · split_ifs at h with hruns
        cases h
        exact .taskEnded ‹_› hruns.1 (.refl s) (by simp)
      · cases h
  | joined i =>
      simp only [step] at h
      split at h
      · split_ifs at h
        cases h
        exact .joined ‹_› (same_recordJoinResult s _)
      · cases h
  | drained =>
      simp only [step] at h
      split_ifs at h with hdrained
      cases h
      exact .drained hdrained.1 (Table.size_eq_zero_iff.mp hdrained.2)
  | finished =>
      simp only [step] at h
      split at h
      · cases h
        exact .returned ‹_› ‹_›
      · cases h
        exact .panicked ‹_› ‹_›
      · cases h
  | drop =>
      simp only [step] at h
      split_ifs at h with hover
      cases h
      exact .dropped (by simpa using hover)

/-! ### Permits and order -/

/-- The data tasks that hold a permit. -/
def running (s : Quic) : Nat := s.tasks.total fun task => task.runs.toNat

/-- What is behind the loop has been done. -/
structure Shut (s : Quic) : Prop where
  cancelled : s.cancelled = true
  closed : s.closed = true
  aborting : s.aborting = true

/-- What holds at each await. -/
def Staged (s : Quic) : Prop :=
  match s.stage with
  | .waiting | .reading => s.control = .unborn
  | .serving => s.control ≠ .unborn ∧ s.control ≠ .taken
  | .joining => s.control ≠ .unborn ∧ s.Shut
  | .stopping => s.control ≠ .unborn ∧ s.Shut ∧ s.tasks = ∅
  | .panicked | .returned (.ok ()) => s.control = .taken ∧ s.Shut ∧ s.tasks = ∅
  | .returned (.error err) =>
      s.control = .unborn ∨ err = .disconnected ∧ s.control ≠ .taken ∧ s.aborting = true
  | .dropped => s.aborting = true

/-- What holds throughout. -/
structure Orderly (s : Quic) : Prop where
  permits : s.free + s.running = s.limit
  numbered : ∀ i task, s.tasks.lookup i = some task → i < s.next
  born : s.control = .unborn ↔ s.hello = none
  quiet : s.hello = none → s.tasks = ∅ ∧ s.handed = []
  staged : s.Staged

theorem orderly_init (limit : Nat) : Orderly (init limit) where
  permits := rfl
  numbered i task h := by cases h
  born := by simp [init]
  quiet _ := ⟨rfl, rfl⟩
  staged := rfl

theorem Shut.keep (h : s.Shut) (hcancelled : s.cancelled = true → t.cancelled = true)
    (hclosed : t.closed = s.closed) (haborting : t.aborting = s.aborting) : t.Shut :=
  ⟨hcancelled h.cancelled, hclosed.trans h.closed, haborting.trans h.aborting⟩

/-- A step within a stage. -/
theorem Staged.keep (hs : s.Staged) (hstage : t.stage = s.stage)
    (hunborn : t.control = .unborn ↔ s.control = .unborn)
    (htaken : t.control = .taken ↔ s.control = .taken)
    (hcancelled : s.cancelled = true → t.cancelled = true) (hclosed : t.closed = s.closed)
    (haborting : t.aborting = s.aborting) (hempty : s.tasks = ∅ → t.tasks = ∅) : t.Staged := by
  unfold Staged at hs ⊢
  rw [hstage]
  have hshut (h : s.Shut) : t.Shut := h.keep hcancelled hclosed haborting
  split at hs
  · exact hunborn.mpr hs
  · exact hunborn.mpr hs
  · exact ⟨mt hunborn.mp hs.1, mt htaken.mp hs.2⟩
  · exact ⟨mt hunborn.mp hs.1, hshut hs.2⟩
  · exact ⟨mt hunborn.mp hs.1, hshut hs.2.1, hempty hs.2.2⟩
  · exact ⟨htaken.mpr hs.1, hshut hs.2.1, hempty hs.2.2⟩
  · exact ⟨htaken.mpr hs.1, hshut hs.2.1, hempty hs.2.2⟩
  · exact hs.imp hunborn.mpr fun h => ⟨h.1, mt htaken.mp h.2.1, haborting.trans h.2.2⟩
  · exact haborting.trans hs

/-- A record. -/
theorem Orderly.same (hs : Orderly s) (h : Same s t) : Orderly t where
  permits := by
    rw [running, h.free, h.tasks, h.limit]
    exact hs.permits
  numbered := by
    rw [h.tasks, h.next]
    exact hs.numbered
  born := by
    rw [h.control, h.hello]
    exact hs.born
  quiet := by
    rw [h.hello, h.tasks, h.handed]
    exact hs.quiet
  staged := by
    refine hs.staged.keep h.stage ?_ ?_ (fun hc => h.cancelled.trans hc) h.closed h.aborting
      fun hempty => h.tasks.trans hempty
    · rw [h.control]
    · rw [h.control]

/-- Another stage. -/
theorem Orderly.leave (hs : Orderly s) {stage : QuicStage} (h : (s.leave stage).Staged) :
    Orderly (s.leave stage) :=
  ⟨hs.permits, hs.numbered, hs.born, hs.quiet, h⟩

theorem Orderly.abandon (hs : Orderly s) {stage : QuicStage} (h : (s.abandon stage).Staged) :
    Orderly (s.abandon stage) :=
  ⟨hs.permits, hs.numbered, hs.born, hs.quiet, h⟩

/-- The hello has come if there is a task. -/
theorem Orderly.hello_ne_none (hs : Orderly s) {i : Nat} {task : QuicTask}
    (htask : s.tasks.lookup i = some task) : s.hello ≠ none := by
  intro hnone
  rw [(hs.quiet hnone).1] at htask
  cases htask

theorem tasks_ne_empty {i : Nat} {task : QuicTask} (htask : s.tasks.lookup i = some task) :
    s.tasks ≠ ∅ := by
  intro hempty
  rw [hempty] at htask
  cases htask

/-- A task goes on, and holds its permit or gives it back. -/
theorem Orderly.setTask (hs : Orderly s) {i : Nat} {task task' : QuicTask}
    (htask : s.tasks.lookup i = some task) (htasks : t.tasks = s.tasks.insert i task')
    (hfree : t.free + task'.runs.toNat = s.free + task.runs.toNat) (hlimit : t.limit = s.limit)
    (hnext : t.next = s.next) (hhello : t.hello = s.hello) (hcontrol : t.control = s.control)
    (hstage : t.stage = s.stage) (hcancelled : t.cancelled = s.cancelled)
    (hclosed : t.closed = s.closed) (haborting : t.aborting = s.aborting) : Orderly t where
  permits := by
    have hreplace := Table.total_replace (f := fun task => task.runs.toNat) htask task'
    have hpermits := hs.permits
    rw [running, htasks, hlimit]
    rw [running] at hpermits
    omega
  numbered j task'' hj := by
    rw [hnext]
    rw [htasks, Table.lookup_insert_eq] at hj
    split_ifs at hj with heq
    · exact heq ▸ hs.numbered i task htask
    · exact hs.numbered j task'' hj
  born := by
    rw [hcontrol, hhello]
    exact hs.born
  quiet hnone := absurd (hhello.symm.trans hnone) (hs.hello_ne_none htask)
  staged := by
    refine hs.staged.keep hstage ?_ ?_ (fun hc => hcancelled.trans hc) hclosed haborting
      fun hempty => absurd hempty (tasks_ne_empty htask)
    · rw [hcontrol]
    · rw [hcontrol]

/-- **A step keeps the order.** -/
theorem Orderly.step (hs : Orderly s) (h : s.step e = some t) : Orderly t := by
  have hstaged := hs.staged
  cases did_of_step h with
  | cancel =>
      exact ⟨hs.permits, hs.numbered, hs.born, hs.quiet,
        hstaged.keep rfl .rfl .rfl (fun _ => rfl) rfl rfl id⟩
  | refused hsame hearly hmoves =>
      refine (hs.same hsame).leave (.inl (hsame.control.trans ?_))
      unfold Staged at hstaged
      rcases hearly with hearly | hearly <;> rwa [hearly] at hstaged
  | opened hwaiting =>
      unfold Staged at hstaged
      rw [hwaiting] at hstaged
      exact hs.leave hstaged
  | spawned hreading =>
      unfold Staged at hstaged
      rw [hreading] at hstaged
      refine ⟨hs.permits, hs.numbered, ?_, ?_, ?_⟩
      · simp
      · intro hnone
        cases hnone
      · simp [Staged]
  | turnedAway hserving hsame => exact hs.same hsame
  | admitted hserving hfree =>
      unfold Staged at hstaged
      rw [hserving] at hstaged
      have hnew : s.tasks.lookup s.next = none := by
        by_contra hold
        obtain ⟨task, htask⟩ := Option.ne_none_iff_exists'.mp hold
        exact Nat.lt_irrefl _ (hs.numbered s.next task htask)
      refine ⟨?_, ?_, hs.born, ?_, ?_⟩
      · have hpermits := hs.permits
        simp only [running, Table.total_insert, Table.erase_eq_self hnew, QuicTask.runs,
          Bool.toNat_true] at hpermits ⊢
        omega
      · intro i task hi
        rw [Table.lookup_insert_eq] at hi
        split_ifs at hi with heq
        · exact heq ▸ Nat.lt_succ_self _
        · exact Nat.lt_succ_of_lt (hs.numbered i task hi)
      · exact fun hnone => absurd (hs.born.mpr hnone) hstaged.1
      · unfold Staged
        rw [hserving]
        exact hstaged
  | lost hserving =>
      unfold Staged at hstaged
      rw [hserving] at hstaged
      exact hs.abandon (.inr ⟨rfl, hstaged.2, rfl⟩)
  | stopped hserving hcancelled =>
      unfold Staged at hstaged
      rw [hserving] at hstaged
      exact ⟨hs.permits, hs.numbered, hs.born, hs.quiet, hstaged.1, ⟨rfl, rfl, rfl⟩⟩
  | controlEnded hrunning =>
      have hborn := hs.born
      refine ⟨hs.permits, hs.numbered, ?_, hs.quiet, ?_⟩
      · rw [hrunning] at hborn
        simpa using hborn
      · refine hstaged.keep rfl ?_ ?_ id rfl rfl id
        · simp [hrunning]
        · simp [hrunning]
  | controlSeen hserving hcontrol hsame =>
      have hu := hs.same hsame
      have hhello : s.hello ≠ none := by
        intro hnone
        have hunborn := hs.born.mpr hnone
        rw [hcontrol] at hunborn
        cases hunborn
      refine ⟨hu.permits, hu.numbered, ?_, hu.quiet, ?_, ⟨rfl, rfl, rfl⟩⟩
      · simpa [close, hsame.hello] using hhello
      · simp
  | looking htask => exact hs.setTask htask rfl rfl rfl rfl rfl rfl rfl rfl rfl rfl
  | @taskEnded _ i task how u htask hruns hsame hmoves =>
      have htasks : (u.endTask i how).tasks = s.tasks.insert i (.ended how) := by
        rw [← hsame.tasks]
        rfl
      refine hs.setTask htask htasks ?_ hsame.limit hsame.next
        hsame.hello hsame.control hsame.stage hsame.cancelled hsame.closed hsame.aborting
      rw [hruns]
      exact congrArg (· + 1) hsame.free
  | joined htask hsame =>
      have hu := hs.same hsame
      refine ⟨?_, ?_, hu.born, ?_, ?_⟩
      · have htotal := Table.total_erase (f := fun task => task.runs.toNat) htask
        have hpermits := hu.permits
        simp only [running, hsame.tasks, QuicTask.runs, Bool.toNat_false, Nat.zero_add]
          at htotal hpermits ⊢
        omega
      · intro i task hi
        rw [Table.lookup_erase_eq] at hi
        split_ifs at hi
        exact hsame.next ▸ hs.numbered i task hi
      · exact fun hnone => absurd (hsame.hello.symm.trans hnone) (hs.hello_ne_none htask)
      · exact hu.staged.keep rfl .rfl .rfl id rfl rfl
          fun hempty => absurd (hsame.tasks.symm.trans hempty) (tasks_ne_empty htask)
  | drained hjoining hempty =>
      unfold Staged at hstaged
      rw [hjoining] at hstaged
      exact hs.leave ⟨hstaged.1, ⟨hstaged.2.1, hstaged.2.2, hstaged.2.3⟩, hempty⟩
  | returned hstopping hcontrol =>
      unfold Staged at hstaged
      rw [hstopping] at hstaged
      obtain ⟨hborn, hshut, hempty⟩ := hstaged
      refine ⟨hs.permits, hs.numbered, ?_, hs.quiet, rfl, ⟨hshut.1, hshut.2, hshut.3⟩, hempty⟩
      have hhello := mt hs.born.mpr hborn
      simpa using hhello
  | panicked hstopping hcontrol =>
      unfold Staged at hstaged
      rw [hstopping] at hstaged
      obtain ⟨-, hshut, hempty⟩ := hstaged
      exact hs.leave ⟨hcontrol, ⟨hshut.1, hshut.2, hshut.3⟩, hempty⟩
  | dropped hbusy => exact hs.abandon rfl

theorem orderly_exec {limit : Nat} {es : List QuicEvent} (h : exec step (init limit) es = some s) :
    Orderly s :=
  exec_inv_of_step (fun _ _ _ hs hstep => hs.step hstep) (orderly_init limit) h

theorem limit_step (h : s.step e = some t) : t.limit = s.limit := by
  cases did_of_step h with
  | refused hsame | turnedAway _ hsame | controlSeen _ _ hsame | joined _ hsame => exact hsame.limit
  | taskEnded _ _ hsame _ => exact hsame.limit
  | _ => rfl

theorem limit_exec {limit : Nat} {es : List QuicEvent} (h : exec step (init limit) es = some s) :
    s.limit = limit :=
  exec_inv_of_step (fun _ _ _ hs hstep => (limit_step hstep).trans hs) rfl h

/-! ### The output of the control task -/

/-- The output of the control task is taken in the loop or in the last await, not in
both. -/
structure Taken (es : List QuicEvent) (s : Quic) : Prop where
  seen : .controlSeen ∈ es → s.control = .taken ∧ s.stage ≠ .returned (.ok ())
  unseen : s.control = .taken → .controlSeen ∈ es ∨ s.stage = .returned (.ok ())

theorem Taken.keep {es : List QuicEvent} (hs : Taken es s) (he : e ≠ .controlSeen)
    (htaken : t.control = .taken ↔ s.control = .taken)
    (hstage : t.stage = .returned (.ok ()) ↔ s.stage = .returned (.ok ())) :
    Taken (es ++ [e]) t where
  seen h := by
    rcases List.mem_append.mp h with h | h
    · exact ⟨htaken.mpr (hs.seen h).1, mt hstage.mp (hs.seen h).2⟩
    · exact absurd (List.mem_singleton.mp h).symm he
  unseen h := (hs.unseen (htaken.mp h)).imp (List.mem_append_left _) hstage.mpr

theorem Taken.step {es : List QuicEvent} (ho : Orderly s) (hs : Taken es s)
    (h : s.step e = some t) : Taken (es ++ [e]) t := by
  have hstaged := ho.staged
  cases did_of_step h with
  | cancel => exact hs.keep (by simp) .rfl .rfl
  | refused hsame hearly hmoves =>
      refine hs.keep hmoves.2.2 (by rw [leave, hsame.control]) ?_
      rcases hearly with hearly | hearly <;> simp [leave, hearly]
  | opened hwaiting => exact hs.keep (by simp) .rfl (by simp [leave, hwaiting])
  | spawned hreading =>
      unfold Staged at hstaged
      rw [hreading] at hstaged
      exact hs.keep (by simp) (by simp [hstaged]) (by simp [hreading])
  | turnedAway hserving hsame =>
      exact hs.keep (by simp) (by rw [hsame.control]) (by rw [hsame.stage])
  | admitted hserving hfree => exact hs.keep (by simp) .rfl .rfl
  | lost hserving => exact hs.keep (by simp) .rfl (by simp [abandon, hserving])
  | stopped hserving hcancelled => exact hs.keep (by simp) .rfl (by simp [close, hserving])
  | controlEnded hrunning => exact hs.keep (by simp) (by simp [hrunning]) .rfl
  | controlSeen hserving hcontrol hsame =>
      refine ⟨fun _ => ⟨rfl, ?_⟩, fun _ => .inl (List.mem_append_right _ List.mem_cons_self)⟩
      simp [close]
  | looking htask => exact hs.keep (by simp) .rfl .rfl
  | taskEnded htask hruns hsame hmoves =>
      exact hs.keep hmoves.2.2 (by rw [endTask, hsame.control]) (by rw [endTask, hsame.stage])
  | joined htask hsame => exact hs.keep (by simp) (by rw [hsame.control]) (by rw [hsame.stage])
  | drained hjoining hempty => exact hs.keep (by simp) .rfl (by simp [leave, hjoining])
  | returned hstopping hcontrol =>
      -- the loop has not taken it, and does not any more
      refine ⟨fun hseen => ?_, fun _ => .inr rfl⟩
      rcases List.mem_append.mp hseen with hseen | hseen
      · cases hcontrol.symm.trans (hs.seen hseen).1
      · simp at hseen
  | panicked hstopping hcontrol => exact hs.keep (by simp) .rfl (by simp [leave, hstopping])
  | dropped hbusy =>
      refine hs.keep (by simp) .rfl ?_
      simp only [abandon, reduceCtorEq, false_iff]
      intro hreturned
      rw [hreturned] at hbusy
      cases hbusy

theorem taken_exec {limit : Nat} {es : List QuicEvent} (h : exec step (init limit) es = some s) :
    Taken es s := by
  induction es using List.reverseRecOn generalizing s with
  | nil =>
      obtain rfl := Option.some.inj h
      refine ⟨fun hmem => ?_, fun htaken => ?_⟩
      · cases hmem
      · cases htaken
  | append_singleton es e ih =>
      obtain ⟨u, hu, hstep⟩ := exec_concat_eq_some.mp h
      exact (ih hu).step (orderly_exec hu) hstep

/-- **What a QUIC connection holds, and what it leaves behind.**  At most `limit` of its
data streams are worked on at a time, and none before the `ClientHello`.  A handler that
returns well has been stopped by its token, and has left nothing; one that has seen its
control task end does not return, but panics over the handle with nothing left, unless
it is dropped.  One that fails has not spawned anything, or has lost the connection, and
then its data tasks are told to stop and the control task is not. -/
theorem leaves_behind (limit : Nat) (es : List QuicEvent) (s : Quic)
    (hrun : exec step (init limit) es = some s) :
    s.running ≤ limit ∧
      (s.hello = none → s.tasks = ∅ ∧ s.handed = []) ∧
      (s.stage = .returned (.ok ()) ∨ s.stage = .panicked →
        s.tasks = ∅ ∧ s.control = .taken ∧ s.closed = true ∧ s.cancelled = true) ∧
      (s.stage.over = true → .controlSeen ∈ es → s.stage = .panicked ∨ s.stage = .dropped) ∧
      (s.stage = .panicked → .controlSeen ∈ es) ∧
      (∀ err, s.stage = .returned (.error err) →
        s.tasks = ∅ ∧ s.control = .unborn ∨
          err = .disconnected ∧ s.control ≠ .taken ∧ s.aborting = true) ∧
      (s.stage = .dropped → s.aborting = true) := by
  have hs := orderly_exec hrun
  have htaken := taken_exec hrun
  have hstaged := hs.staged
  unfold Staged at hstaged
  refine ⟨?_, hs.quiet, ?_, ?_, ?_, ?_, ?_⟩
  · have hpermits := hs.permits
    rw [limit_exec hrun] at hpermits
    omega
  · intro hstage
    have hended : s.control = .taken ∧ s.Shut ∧ s.tasks = ∅ := by
      rcases hstage with hstage | hstage <;> rwa [hstage] at hstaged
    exact ⟨hended.2.2, hended.1, hended.2.1.closed, hended.2.1.cancelled⟩
  · intro hover hseen
    obtain ⟨hcontrol, hnotOk⟩ := htaken.seen hseen
    cases hstage : s.stage with
    | panicked => exact .inl rfl
    | dropped => exact .inr rfl
    | returned result =>
        cases result with
        | ok => exact absurd hstage hnotOk
        | error err =>
            -- a handler that fails has never taken its control task
            rw [hstage] at hstaged
            rcases hstaged with hunborn | ⟨-, huntaken, -⟩
            · cases hcontrol.symm.trans hunborn
            · exact absurd hcontrol huntaken
    | _ =>
        rw [hstage] at hover
        cases hover
  · intro hstage
    rw [hstage] at hstaged
    refine (htaken.unseen hstaged.1).resolve_right ?_
    rw [hstage]
    simp
  · intro err hstage
    rw [hstage] at hstaged
    exact hstaged.imp (fun hunborn => ⟨(hs.quiet (hs.born.mp hunborn)).1, hunborn⟩) id
  · intro hstage
    rwa [hstage] at hstaged

/-- Two streams, the second of them one too many, and the client says goodbye. -/
def goodbye : List QuicEvent :=
  [.opened, .first (.clientHello ⟨.current, .supported⟩), .accepted, .accepted,
    .controlEnds (.returned (.ok ())), .controlSeen, .taskAborted 0, .joined 0, .drained, .finished]

/-- The handler after that run. -/
def saidGoodbye : Quic := (exec step (init 1) goodbye).getD (init 1)

theorem exec_goodbye : exec step (init 1) goodbye = some saidGoodbye := by
  obtain ⟨t, ht⟩ : ∃ t, exec step (init 1) goodbye = some t :=
    Option.isSome_iff_exists.mp (by decide +kernel)
  rw [saidGoodbye, ht, Option.getD_some]

theorem leaves_behind_goodbye :
    saidGoodbye.stage = .panicked ∧ saidGoodbye.rejected = 1 ∧ saidGoodbye.tasks = ∅ ∧
      .controlSeen ∈ goodbye := by
  have hstage : saidGoodbye.stage = .panicked := by decide +kernel
  obtain ⟨-, -, hempty, -, hseen, -⟩ := leaves_behind 1 goodbye saidGoodbye exec_goodbye
  exact ⟨hstage, by decide +kernel, (hempty (.inr hstage)).1, hseen hstage⟩

/-! ### The end -/

/-- Steps that are left to a data task, at most, joining it included. -/
def taskLeft : QuicTask → Nat
  | .reading => 3
  | .looking _ => 2
  | .ended _ => 1

/-- The moves the handler has left at most. -/
def stageLeft : QuicStage → Nat
  | .waiting => 5
  | .reading => 4
  | .serving => 3
  | .joining => 2
  | .stopping => 1
  | _ => 0

/-- The moves the control task has left. -/
def controlLeft : ControlTask → Nat
  | .unborn | .running => 1
  | _ => 0

/-- Steps that are left, at most, if no more streams are accepted. -/
def left (s : Quic) : Nat := stageLeft s.stage + controlLeft s.control + s.tasks.total taskLeft

/-- The token fires once, and no stream is accepted any more. -/
def winds (_ : Quic) (e : QuicEvent) : Prop := e ≠ .cancel ∧ e ≠ .accepted

/-- What the runtime owes a handler whose token has fired: its branch of the select,
the budget of a read, and that aborted tasks end. -/
def owed (_ : Quic) (e : QuicEvent) : Prop :=
  e = .tokenSeen ∨ e = .elapsed ∨ (∃ i, e = .taskAborted i) ∨ (∃ i, e = .joined i) ∨ e = .drained ∨
    e = .controlEnds .aborted ∨ e = .finished

theorem stageLeft_of_over {stage : QuicStage} (h : stage.over = false) : 0 < stageLeft stage := by
  cases stage with
  | returned | panicked | dropped => cases h
  | _ => decide

theorem taskLeft_of_runs {task : QuicTask} (h : task.runs = true) : 1 < taskLeft task := by
  cases task with
  | reading => exact Nat.lt_of_sub_eq_succ rfl
  | looking hello => exact Nat.lt_succ_self 1
  | ended how => cases h

/-- The handler goes on to a later stage. -/
theorem left_lt_of_stage (hstage : stageLeft t.stage < stageLeft s.stage)
    (hcontrol : controlLeft t.control ≤ controlLeft s.control) (htasks : t.tasks = s.tasks) :
    t.left < s.left := by
  unfold left
  rw [htasks]
  omega

/-- A data task goes on. -/
theorem left_lt_of_tasks (hstage : t.stage = s.stage) (hcontrol : t.control = s.control)
    (htasks : t.tasks.total taskLeft < s.tasks.total taskLeft) : t.left < s.left := by
  unfold left
  rw [hstage, hcontrol]
  omega

/-- **Every step takes something off.** -/
theorem left_step (hs : Orderly s) (hw : winds s e) (h : s.step e = some t) :
    t.left < s.left := by
  have hstaged := hs.staged
  unfold Staged at hstaged
  cases did_of_step h with
  | cancel => exact absurd rfl hw.1
  | refused hsame hearly hmoves =>
      refine left_lt_of_stage ?_ (Nat.le_of_eq (congrArg controlLeft hsame.control)) hsame.tasks
      rcases hearly with hearly | hearly <;> rw [hearly] <;> exact Nat.succ_pos _
  | opened hwaiting =>
      refine left_lt_of_stage ?_ le_rfl rfl
      rw [hwaiting]
      exact Nat.lt_succ_self 4
  | spawned hreading =>
      rw [hreading] at hstaged
      refine left_lt_of_stage ?_ ?_ rfl
      · rw [hreading]
        exact Nat.lt_succ_self 3
      · rw [hstaged]
        exact le_rfl
  | turnedAway | admitted => exact absurd rfl hw.2
  | lost hserving =>
      refine left_lt_of_stage ?_ le_rfl rfl
      rw [hserving]
      exact Nat.succ_pos 2
  | stopped hserving hcancelled =>
      refine left_lt_of_stage ?_ le_rfl rfl
      rw [hserving]
      exact Nat.lt_succ_self 2
  | controlEnded hrunning =>
      unfold left
      rw [hrunning]
      exact Nat.add_lt_add_right (Nat.lt_succ_self _) _
  | controlSeen hserving hcontrol hsame =>
      refine left_lt_of_stage ?_ (Nat.zero_le _) hsame.tasks
      rw [hserving]
      exact Nat.lt_succ_self 2
  | @looking i hello htask =>
      have hreplace := Table.total_replace (f := taskLeft) htask (.looking hello)
      rw [show taskLeft .reading = 3 from rfl, show taskLeft (.looking hello) = 2 from rfl]
        at hreplace
      exact left_lt_of_tasks rfl rfl (by dsimp only; omega)
  | @taskEnded _ i task how u htask hruns hsame hmoves =>
      have hreplace := Table.total_replace (f := taskLeft) htask (.ended how)
      have hruns := taskLeft_of_runs hruns
      rw [show taskLeft (.ended how) = 1 from rfl] at hreplace
      refine left_lt_of_tasks hsame.stage hsame.control ?_
      show Table.total taskLeft (u.tasks.insert i (.ended how)) < _
      rw [hsame.tasks]
      omega
  | @joined i how u htask hsame =>
      have htotal := Table.total_erase (f := taskLeft) htask
      rw [show taskLeft (.ended how) = 1 from rfl] at htotal
      exact left_lt_of_tasks hsame.stage hsame.control (by dsimp only; omega)
  | drained hjoining hempty =>
      refine left_lt_of_stage ?_ le_rfl rfl
      rw [hjoining]
      exact Nat.lt_succ_self 1
  | returned hstopping hcontrol =>
      refine left_lt_of_stage ?_ (Nat.zero_le _) rfl
      rw [hstopping]
      exact Nat.succ_pos 0
  | panicked hstopping hcontrol =>
      refine left_lt_of_stage ?_ le_rfl rfl
      rw [hstopping]
      exact Nat.succ_pos 0
  | dropped hbusy => exact left_lt_of_stage (stageLeft_of_over hbusy) le_rfl rfl

theorem cancelled_step (hs : s.cancelled = true) (h : s.step e = some t) : t.cancelled = true := by
  cases did_of_step h with
  | refused hsame | turnedAway _ hsame | joined _ hsame => exact hsame.cancelled.trans hs
  | taskEnded _ _ hsame _ => exact hsame.cancelled.trans hs
  | cancel | stopped | controlSeen => rfl
  | _ => exact hs

/-- A handler whose token has fired is not stuck. -/
theorem exists_owed (hs : Orderly s) (hcancelled : s.cancelled = true)
    (hbusy : s.stage.over = false) : ∃ e, owed s e ∧ (s.step e).isSome = true := by
  have hstaged := hs.staged
  unfold Staged at hstaged
  cases hstage : s.stage with
  | waiting | serving => exact ⟨.tokenSeen, .inl rfl, by simp [step, hstage, hcancelled]⟩
  | reading => exact ⟨.elapsed, .inr (.inl rfl), by simp [step, hstage]⟩
  | joining =>
      rw [hstage] at hstaged
      by_cases hempty : s.tasks = ∅
      · refine ⟨.drained, by simp [owed], ?_⟩
        simp [step, hstage, Table.size_eq_zero_iff.mpr hempty]
      · obtain ⟨i, task, htask⟩ := Table.exists_lookup hempty
        cases task with
        | ended how => exact ⟨.joined i, by simp [owed], by simp [step, htask, hstage]⟩
        | reading | looking =>
            refine ⟨.taskAborted i, by simp [owed], ?_⟩
            simp [step, htask, QuicTask.runs, hstaged.2.aborting]
  | stopping =>
      rw [hstage] at hstaged
      cases hcontrol : s.control with
      | unborn => exact absurd hcontrol hstaged.1
      | running =>
          exact ⟨.controlEnds .aborted, by simp [owed], by simp [step, hcontrol, hstage]⟩
      | ended | taken => exact ⟨.finished, by simp [owed], by simp [step, hcontrol, hstage]⟩
  | returned | panicked | dropped =>
      rw [hstage] at hbusy
      cases hbusy

theorem winds_of_owed (h : owed s e) : winds s e := by
  rcases h with rfl | rfl | ⟨i, rfl⟩ | ⟨i, rfl⟩ | rfl | rfl | rfl <;> simp [winds]

/-- A handler whose token has fired subsides. -/
theorem subsides_owed :
    Subsides step owed (fun s => Orderly s ∧ s.cancelled = true)
      (fun s => s.stage.over = true) left where
  keeps _ _ _ hs _ h := ⟨hs.1.step h, cancelled_step hs.2 h⟩
  lowers _ _ _ hs ho h := left_step hs.1 (winds_of_owed ho) h
  moves _ hs hbusy := exists_owed hs.1 hs.2 (by simpa using hbusy)

/-- **A QUIC connection comes to an end.**  Once the token has fired and no more streams
are accepted, the handler and its tasks take no more steps than are left, in whatever
order; and if only its own branches, budgets and aborts are honoured, it comes to its
end. -/
theorem comes_to_an_end (limit : Nat) (es : List QuicEvent) (s : Quic)
    (hrun : exec step (init limit) es = some s) (hcancelled : s.cancelled = true) :
    (∀ es' t, AllSteps step winds s es' → exec step s es' = some t → es'.length ≤ s.left) ∧
      (s.stage.over = false → ∃ e, owed s e ∧ (s.step e).isSome = true) ∧
      ∃ es' t, AllSteps step owed s es' ∧ exec step s es' = some t ∧ t.stage.over = true := by
  have hs := orderly_exec hrun
  refine ⟨fun es' t hwinds hrun' => ?_, exists_owed hs hcancelled,
    subsides_owed.reaches_rest ⟨hs, hcancelled⟩⟩
  have hall : Subsides step winds Orderly (fun _ => True) left :=
    ⟨fun _ _ _ hs _ h => hs.step h, fun _ _ _ hs hw h => left_step hs hw h,
      fun _ _ hrest => absurd trivial hrest⟩
  have hlength := hall.length_le hs hwinds hrun'
  omega

/-- A data stream is being read when the token fires. -/
def interrupted : List QuicEvent :=
  [.opened, .first (.clientHello ⟨.current, .supported⟩), .accepted, .cancel]

/-- The handler after that run. -/
def wasInterrupted : Quic := (exec step (init 1) interrupted).getD (init 1)

theorem exec_interrupted : exec step (init 1) interrupted = some wasInterrupted := by
  obtain ⟨t, ht⟩ : ∃ t, exec step (init 1) interrupted = some t :=
    Option.isSome_iff_exists.mp (by decide +kernel)
  rw [wasInterrupted, ht, Option.getD_some]

theorem comes_to_an_end_interrupted :
    wasInterrupted.running = 1 ∧ wasInterrupted.left = 7 ∧
      ∃ es t, AllSteps step owed wasInterrupted es ∧ exec step wasInterrupted es = some t ∧
        t.stage.over = true :=
  ⟨by decide +kernel, by decide +kernel,
    (comes_to_an_end 1 interrupted wasInterrupted exec_interrupted (by decide +kernel)).2.2⟩

end Quic

end Eggtunnel
