/-
Eggtunnel/Dial.lean

`handle_open`: what the client does for one `Open`.

The function is a chain of awaits: the target is connected first, then a data
connection is established the way the Session's own connection was, then a
`DataHello` names the `Open` on it, and then both are relayed.  A stage stands
for the await the task is at; all but the last two are raced with the Session
token, and all but the relay have a budget.

The bytes are relayed by another crate; here a relay is what it reports at its
end.
-/
import Eggtunnel.Client
import Eggtunnel.Run
import Eggtunnel.Subside

namespace Eggtunnel

/-! ### Stages -/

/-- `ClientDataTransport`, as far as `handle_open` branches on it. -/
inductive DataTransport
  | tcpTls (websocket : Bool)
  | quic
  deriving DecidableEq, Repr

/-- The await that the task is at. -/
inductive DialStage
  /-- `connector.connect` -/
  | target
  /-- `connect_tcp` -/
  | tcp
  /-- `tls_connect` -/
  | tls
  /-- `connect_over_stream_with_config` -/
  | websocket
  /-- `connection.open_stream` -/
  | stream
  /-- `write_boxed` of the `DataHello` -/
  | hello
  /-- `relay_with_options` -/
  | relay
  | ended (result : Except TunnelError Unit)
  deriving DecidableEq

namespace DialStage

/-- The await is raced with the Session token. -/
def selects : DialStage → Bool
  | .target | .tcp | .tls | .websocket | .stream => true
  | _ => false

/-- The budget of the await. -/
def budget (p : TimeoutPolicy) : DialStage → Option Duration
  | .target | .tcp | .stream => some p.connect
  | .tls | .websocket | .hello => some p.handshake
  | .relay | .ended _ => none

/-- What the await can fail with, besides its budget and the token.  With an
outbound proxy, `connect_tcp` has the proxy's own refusals. -/
def failures : DialStage → List TunnelError
  | .target => [.target, .io]
  | .tcp => [.io, .authentication, .authorization, .timeout, .disconnected]
  | .tls | .websocket => [.tls]
  | .stream => [.disconnected]
  | _ => []

/-- The await that follows. -/
def next (transport : DataTransport) : DialStage → Option DialStage
  | .target =>
      match transport with
      | .tcpTls _ => some .tcp
      | .quic => some .stream
  | .tcp => some .tls
  | .tls => if transport = .tcpTls true then some .websocket else some .hello
  | .websocket | .stream => some .hello
  | _ => none

/-- An await that another follows is raced with the token, and the target comes
first. -/
theorem next_eq_some {transport : DataTransport} {s s' : DialStage}
    (h : s.next transport = some s') :
    s.selects = true ∧ s' ≠ .target ∧ (s'.selects = true ∨ s' = .hello) := by
  unfold next at h
  split at h
  · split at h <;> cases h <;> simp [selects]
  · cases h
    simp [selects]
  · split_ifs at h <;> cases h <;> simp [selects]
  · cases h
    simp [selects]
  · cases h
    simp [selects]
  · cases h

end DialStage

/-! ### The task -/

/-- One running `handle_open`, at its stage since `since`.  `connected` says that
the target has been connected, and `written` is what was written on the data
connection. -/
structure Dial where
  task : OpenTask
  sessionId : SessionId
  transport : DataTransport
  timeouts : TimeoutPolicy
  stage : DialStage
  since : Instant
  connected : Bool
  written : List Write
  bytesUpstream : Nat
  bytesDownstream : Nat

/-- What can happen to a `handle_open`. -/
inductive DialEvent
  /-- the `cancel.cancelled()` branch -/
  | cancelled
  | elapsed
  | ready
  | failed (e : TunnelError)
  /-- the write of the `DataHello` ends -/
  | wrote (o : WriteOutcome)
  /-- the relay ends and reports its bytes, having failed or not -/
  | relayed (upstream downstream : Nat)
  deriving DecidableEq

namespace Dial

/-- The task is spawned. -/
def start (task : OpenTask) (sessionId : SessionId) (transport : DataTransport)
    (timeouts : TimeoutPolicy) (now : Instant) : Dial where
  task
  sessionId
  transport
  timeouts
  stage := .target
  since := now
  connected := false
  written := []
  bytesUpstream := 0
  bytesDownstream := 0

/-- The `DataHello` that names the `Open`. -/
def hello (d : Dial) : DataHello := ⟨d.sessionId, d.task.service.id, d.task.frame.connectionId⟩

/-- It returns an error. -/
def fail (d : Dial) (e : TunnelError) (now : Instant) : Dial :=
  { d with stage := .ended (.error e), since := now }

/-- The write of the `DataHello`, under the handshake budget. -/
def wrote (d : Dial) (o : WriteOutcome) (now : Instant) : Dial :=
  let m := Message.dataHello d.hello
  let d := { d with written := d.written ++ [(m, o)] }
  match handshakeWrite m o with
  | .ok () => { d with stage := .relay, since := now }
  | .error e => d.fail e now

/-- One step, at the time it happens. -/
def step (d : Dial) : Instant × DialEvent → Option Dial
  | (now, .cancelled) => if d.stage.selects then some (d.fail .cancelled now) else none
  | (now, .elapsed) =>
      if d.stage.selects && (d.stage.budget d.timeouts).any (d.since + · ≤ now) then
        some (d.fail .timeout now)
      else none
  | (now, .ready) => (d.stage.next d.transport).map fun stage =>
      { d with stage, since := now, connected := d.connected || d.stage = .target }
  | (now, .failed e) => if e ∈ d.stage.failures then some (d.fail e now) else none
  | (now, .wrote o) => if d.stage = .hello then some (d.wrote o now) else none
  | (now, .relayed upstream downstream) =>
      if d.stage = .relay then
        some { d with
          stage := .ended (.ok ())
          since := now
          bytesUpstream := d.bytesUpstream + upstream
          bytesDownstream := d.bytesDownstream + downstream }
      else none

/-- How the task has ended, if it has. -/
def result (d : Dial) : Option (Except TunnelError Unit) :=
  match d.stage with
  | .ended result => some result
  | _ => none

/-! ### What a step does -/

/-- What a step was, one constructor for each way an await ends. -/
inductive Did (d : Dial) : Instant × DialEvent → Dial → Prop
  | failed {now e error} (hearly : d.stage.selects = true) :
      Did d (now, e) (d.fail error now)
  | ready {now stage} (hnext : d.stage.next d.transport = some stage) :
      Did d (now, .ready)
        { d with stage, since := now, connected := d.connected || d.stage = .target }
  | greeted {now} (hstage : d.stage = .hello) :
      Did d (now, .wrote .done)
        { d with
          written := d.written ++ [(.dataHello d.hello, .done)], stage := .relay, since := now }
  | cut {now o error} (hstage : d.stage = .hello) (ho : o ≠ .done) :
      Did d (now, .wrote o)
        ({ d with written := d.written ++ [(Message.dataHello d.hello, o)] }.fail error now)
  | relayed {now upstream downstream} (hstage : d.stage = .relay) :
      Did d (now, .relayed upstream downstream)
        { d with
          stage := .ended (.ok ())
          since := now
          bytesUpstream := d.bytesUpstream + upstream
          bytesDownstream := d.bytesDownstream + downstream }

theorem selects_of_failure {stage : DialStage} {e : TunnelError} (h : e ∈ stage.failures) :
    stage.selects = true := by
  cases stage <;> first | rfl | cases h

variable {d d' : Dial} {e : Instant × DialEvent}

theorem did_of_step (h : d.step e = some d') : Did d e d' := by
  obtain ⟨now, e⟩ := e
  cases e with
  | cancelled =>
      dsimp only [Dial.step] at h
      split_ifs at h with hselects
      cases h
      exact .failed hselects
  | elapsed =>
      dsimp only [Dial.step] at h
      split_ifs at h with hboth
      cases h
      exact .failed (Bool.and_eq_true_iff.mp hboth).1
  | ready =>
      obtain ⟨stage, hnext, rfl⟩ := Option.map_eq_some_iff.mp h
      exact .ready hnext
  | failed error =>
      dsimp only [Dial.step] at h
      split_ifs at h with hfailure
      cases h
      exact .failed (selects_of_failure hfailure)
  | wrote o =>
      dsimp only [Dial.step] at h
      split_ifs at h with hstage
      cases h
      unfold wrote
      dsimp only
      rcases hwrite : handshakeWrite (.dataHello d.hello) o with error | done
      · refine .cut hstage ?_
        rintro rfl
        cases (writeBudgeted_done _).symm.trans hwrite
      · obtain rfl := writeBudgeted_eq_ok hwrite
        exact .greeted hstage
  | relayed upstream downstream =>
      dsimp only [Dial.step] at h
      split_ifs at h with hstage
      cases h
      exact .relayed hstage

/-! ### What is written, and when -/

/-- The target is connected before anything is written, and nothing but one
`DataHello` is; a task that fails has not written it whole. -/
def Sound (d : Dial) : Prop :=
  match d.stage with
  | .target => d.connected = false ∧ d.written = []
  | .tcp | .tls | .websocket | .stream | .hello => d.connected = true ∧ d.written = []
  | .relay | .ended (.ok ()) => d.connected = true ∧ d.written = [(.dataHello d.hello, .done)]
  | .ended (.error _) => d.written = [] ∨
      (d.connected = true ∧ ∃ o, o ≠ .done ∧ d.written = [(.dataHello d.hello, o)])

theorem sound_of_early (hstage : d.stage.selects = true ∨ d.stage = .hello)
    (hconnected : d.connected = decide (d.stage ≠ .target)) (hwritten : d.written = []) :
    d.Sound := by
  unfold Sound
  cases hs : d.stage with
  | target | tcp | tls | websocket | stream | hello =>
      rw [hs] at hconnected
      exact ⟨hconnected, hwritten⟩
  | relay | ended => simp [hs, DialStage.selects] at hstage

theorem Sound.early (h : d.Sound) (hstage : d.stage.selects = true ∨ d.stage = .hello) :
    d.connected = decide (d.stage ≠ .target) ∧ d.written = [] := by
  unfold Sound at h
  cases hs : d.stage with
  | target | tcp | tls | websocket | stream | hello =>
      rw [hs] at h
      exact h
  | relay | ended => simp [hs, DialStage.selects] at hstage

theorem Sound.step (hs : d.Sound) (h : d.step e = some d') : d'.Sound := by
  cases did_of_step h with
  | failed hearly => exact .inl (hs.early (.inl hearly)).2
  | ready hnext =>
      obtain ⟨hselects, hlater, hearly⟩ := DialStage.next_eq_some hnext
      obtain ⟨hconnected, hwritten⟩ := hs.early (.inl hselects)
      refine sound_of_early hearly ?_ hwritten
      simp [hconnected, hlater]
  | greeted hstage =>
      obtain ⟨hconnected, hwritten⟩ := hs.early (.inr hstage)
      rw [hstage] at hconnected
      exact ⟨hconnected, by rw [hwritten]; rfl⟩
  | @cut now o error hstage ho =>
      obtain ⟨hconnected, hwritten⟩ := hs.early (.inr hstage)
      rw [hstage] at hconnected
      exact .inr ⟨hconnected, o, ho, by rw [fail, hwritten]; rfl⟩
  | relayed hstage =>
      unfold Sound at hs
      rw [hstage] at hs
      exact hs

/-- The task stays the one that was spawned. -/
theorem same_step (h : d.step e = some d') :
    d'.task = d.task ∧ d'.sessionId = d.sessionId ∧ d'.transport = d.transport ∧
      d'.timeouts = d.timeouts := by
  cases did_of_step h with
  | failed | ready | greeted | cut | relayed => exact ⟨rfl, rfl, rfl, rfl⟩

/-! ### How long it takes -/

end Dial

namespace DialStage

/-- The awaits that are left. -/
def left : DialStage → Nat
  | .target => 6
  | .tcp => 5
  | .tls => 4
  | .websocket | .stream => 3
  | .hello => 2
  | .relay => 1
  | .ended _ => 0

/-- The budgets that are left until the relay, at most. -/
def ahead (p : TimeoutPolicy) : DialStage → Duration
  | .target => 2 * p.connect + 3 * p.handshake
  | .tcp => p.connect + 3 * p.handshake
  | .tls => 3 * p.handshake
  | .websocket => 2 * p.handshake
  | .stream => p.connect + p.handshake
  | .hello => p.handshake
  | .relay | .ended _ => 0

theorem left_lt_of_next {transport : DataTransport} {s s' : DialStage}
    (h : s.next transport = some s') : s'.left < s.left := by
  unfold next at h
  split at h
  · split at h <;> cases h <;> decide
  · cases h
    decide
  · split_ifs at h <;> cases h <;> decide
  · cases h
    decide
  · cases h
    decide
  · cases h

/-- Each await spends its own budget of what is ahead. -/
theorem ahead_of_next {transport : DataTransport} {s s' : DialStage} (p : TimeoutPolicy)
    (h : s.next transport = some s') :
    ∃ b, s.budget p = some b ∧ b + s'.ahead p ≤ s.ahead p := by
  unfold next at h
  split at h
  · refine ⟨p.connect, rfl, ?_⟩
    split at h <;> cases h <;> dsimp only [ahead, Duration] <;> omega
  · cases h
    exact ⟨p.connect, rfl, le_rfl⟩
  · refine ⟨p.handshake, rfl, ?_⟩
    split_ifs at h <;> cases h <;> dsimp only [ahead, Duration] <;> omega
  · cases h
    refine ⟨p.handshake, rfl, ?_⟩
    dsimp only [ahead, Duration]
    omega
  · cases h
    exact ⟨p.connect, rfl, le_rfl⟩
  · cases h

theorem budget_le_ahead (p : TimeoutPolicy) {s : DialStage} {b : Duration}
    (h : s.budget p = some b) : b ≤ s.ahead p := by
  cases s with
  | relay | ended => cases h
  | target | tcp | tls | websocket | stream | hello =>
      cases h
      dsimp only [ahead, Duration]
      omega

theorem budget_of_selects (p : TimeoutPolicy) {s : DialStage} (h : s.selects = true) :
    ∃ b, s.budget p = some b := by
  cases s with
  | target | tcp | tls | websocket | stream => exact ⟨_, rfl⟩
  | hello | relay | ended => cases h

end DialStage

namespace Dial

variable {d d' : Dial} {e : Instant × DialEvent}

/-- The timers of the task are served on time. -/
def prompt (d : Dial) (e : Instant × DialEvent) : Bool :=
  (d.stage.budget d.timeouts).all (e.1 ≤ d.since + ·)

theorem le_of_prompt {b : Duration} (h : d.prompt e = true)
    (hb : d.stage.budget d.timeouts = some b) : e.1 ≤ d.since + b := by
  rw [prompt, hb] at h
  exact of_decide_eq_true h

/-- The task is before its relay and within the budgets ahead of it, or past it. -/
def Within (deadline : Instant) (d : Dial) : Prop :=
  d.result = some (.ok ()) ∨ d.since + d.stage.ahead d.timeouts ≤ deadline

theorem Within.spent {deadline : Instant} {b : Duration} (hs : Within deadline d)
    (hb : d.stage.budget d.timeouts = some b) :
    d.since + d.stage.ahead d.timeouts ≤ deadline := by
  refine hs.resolve_left fun hended => ?_
  cases hstage : d.stage with
  | ended => rw [hstage] at hb; cases hb
  | target | tcp | tls | websocket | stream | hello | relay =>
      rw [result, hstage] at hended
      cases hended

theorem Within.step {deadline : Instant} (hs : Within deadline d) (hprompt : d.prompt e = true)
    (h : d.step e = some d') : Within deadline d' := by
  have hspend {b after : Nat} (hb : d.stage.budget d.timeouts = some b)
      (hafter : b + after ≤ d.stage.ahead d.timeouts) : e.1 + after ≤ deadline :=
    calc e.1 + after ≤ d.since + b + after := Nat.add_le_add_right (le_of_prompt hprompt hb) after
      _ = d.since + (b + after) := Nat.add_assoc ..
      _ ≤ d.since + d.stage.ahead d.timeouts := Nat.add_le_add_left hafter d.since
      _ ≤ deadline := hs.spent hb
  have hlast {b : Nat} (hb : d.stage.budget d.timeouts = some b) : e.1 + 0 ≤ deadline :=
    hspend hb (DialStage.budget_le_ahead _ hb)
  have hwrite (hstage : d.stage = .hello) :
      d.stage.budget d.timeouts = some d.timeouts.handshake := by rw [hstage]; rfl
  cases did_of_step h with
  | failed hearly =>
      obtain ⟨b, hb⟩ := DialStage.budget_of_selects d.timeouts hearly
      exact .inr (hlast hb)
  | ready hnext =>
      obtain ⟨b, hb, hahead⟩ := DialStage.ahead_of_next d.timeouts hnext
      exact .inr (hspend hb hahead)
  | greeted hstage => exact .inr (hlast (hwrite hstage))
  | cut hstage => exact .inr (hlast (hwrite hstage))
  | relayed hstage => exact .inl rfl

/-! ### That it ends -/

theorem left_step (h : d.step e = some d') : d'.stage.left < d.stage.left := by
  cases did_of_step h with
  | failed hearly =>
      cases hstage : d.stage with
      | target | tcp | tls | websocket | stream => exact Nat.succ_pos _
      | hello | relay | ended => rw [hstage] at hearly; cases hearly
  | ready hnext => exact DialStage.left_lt_of_next hnext
  | greeted hstage =>
      rw [hstage]
      exact Nat.lt_succ_self 1
  | cut hstage =>
      rw [hstage]
      exact Nat.zero_lt_two
  | relayed hstage =>
      rw [hstage]
      exact Nat.zero_lt_one

/-- A task that has not ended has an await that ends without the token, and in
time: its budget elapses, also that of the write, or the relay is over. -/
theorem moves (h : d.result = none) :
    ∃ e, e.2 ≠ .cancelled ∧ d.prompt e = true ∧ (d.step e).isSome = true := by
  cases hstage : d.stage with
  | target | tcp | tls | websocket | stream =>
      have hselects : d.stage.selects = true := by rw [hstage]; rfl
      obtain ⟨b, hb⟩ := DialStage.budget_of_selects d.timeouts hselects
      exact ⟨(d.since + b, .elapsed), by simp, by simp [prompt, hb], by simp [step, hb, hselects]⟩
  | hello =>
      refine ⟨(d.since + d.timeouts.handshake, .wrote (.cut 0)), by simp, ?_, by simp [step, hstage]⟩
      simp [prompt, hstage, DialStage.budget]
  | relay =>
      exact ⟨(0, .relayed 0 0), by simp, by simp [prompt, hstage, DialStage.budget],
        by simp [step, hstage]⟩
  | ended result => simp [Dial.result, hstage] at h

theorem subsides : Subsides step (fun _ _ => True) (fun _ => True) (fun d => d.result ≠ none)
    (fun d => d.stage.left) where
  keeps _ _ _ _ _ _ := trivial
  lowers _ _ _ _ _ h := left_step h
  moves _ _ h := by
    obtain ⟨e, -, -, he⟩ := moves (not_not.mp h)
    exact ⟨e, trivial, he⟩

/-! ### Every way an `Open` goes -/

/-- The `DataHello` of the task has been written whole. -/
def greeted (d : Dial) : Bool := (Message.dataHello d.hello, WriteOutcome.done) ∈ d.written

theorem Sound.written_le (h : d.Sound) :
    d.written = [] ∨ d.connected = true ∧ ∃ o, d.written = [(.dataHello d.hello, o)] := by
  unfold Sound at h
  split at h
  · exact .inl h.2
  · exact .inl h.2
  · exact .inl h.2
  · exact .inl h.2
  · exact .inl h.2
  · exact .inl h.2
  · exact .inr ⟨h.1, .done, h.2⟩
  · exact .inr ⟨h.1, .done, h.2⟩
  · exact h.imp id fun ⟨hconnected, o, _, hwritten⟩ => ⟨hconnected, o, hwritten⟩

theorem Sound.greeted_of_ok (h : d.Sound) (hend : d.stage = .ended (.ok ())) :
    d.greeted = true := by
  unfold Sound at h
  rw [hend] at h
  simp [greeted, h.2]

theorem Sound.greeted_of_error {error : TunnelError} (h : d.Sound)
    (hend : d.stage = .ended (.error error)) : d.greeted = false := by
  unfold Sound at h
  rw [hend] at h
  obtain hwritten | ⟨-, o, ho, hwritten⟩ := h
  · simp [greeted, hwritten]
  · simp [greeted, hwritten, ho.symm]

theorem result_eq_some {r : Except TunnelError Unit} (h : d.result = some r) :
    d.stage = .ended r := by
  unfold result at h
  split at h
  · rename_i hstage
    rw [hstage, Option.some.inj h]
  · cases h

section Run

variable {task : OpenTask} {sessionId : SessionId} {transport : DataTransport}
  {timeouts : TimeoutPolicy} {now : Instant} {es : List (Instant × DialEvent)}

theorem sound_start : (start task sessionId transport timeouts now).Sound := ⟨rfl, rfl⟩

theorem same_exec (hrun : exec step (start task sessionId transport timeouts now) es = some d) :
    d.task = task ∧ d.sessionId = sessionId ∧ d.transport = transport ∧ d.timeouts = timeouts := by
  have hstep : ∀ (d : Dial) (e : Instant × DialEvent) (d' : Dial),
      d.task = task ∧ d.sessionId = sessionId ∧ d.transport = transport ∧ d.timeouts = timeouts →
      d.step e = some d' →
      d'.task = task ∧ d'.sessionId = sessionId ∧ d'.transport = transport ∧
        d'.timeouts = timeouts := by
    rintro d e d' ⟨rfl, rfl, rfl, rfl⟩ h
    exact same_step h
  exact exec_inv_of_step hstep ⟨rfl, rfl, rfl, rfl⟩ hrun

/-- **What becomes of an `Open`.**  Its task makes at most six awaits and can always
go on to its end, also if nobody cancels it.  It writes nothing but one `DataHello`,
that of the `Open`, and only once the target is connected.  A task that ends well has
written it, and one that fails, which is when the `Open` is rejected, has not;
whichever it is, if the timers are served on time, it is known when the budgets of two
connects and three handshakes are spent. -/
theorem open_comes_to_one_end
    (hrun : exec step (start task sessionId transport timeouts now) es = some d) :
    es.length + d.stage.left ≤ 6 ∧
      (d.result = none →
        ∃ e, e.2 ≠ .cancelled ∧ d.prompt e = true ∧ (d.step e).isSome = true) ∧
      (d.written = [] ∨ d.connected = true ∧ ∃ o, d.written =
        [(.dataHello ⟨sessionId, task.service.id, task.frame.connectionId⟩, o)]) ∧
      (d.result = some (.ok ()) → d.greeted = true) ∧
      (∀ error, d.result = some (.error error) → d.greeted = false) ∧
      (AllSteps step (fun d e => d.prompt e = true)
          (start task sessionId transport timeouts now) es → d.result ≠ some (.ok ()) →
        d.since ≤ now + (2 * timeouts.connect + 3 * timeouts.handshake)) := by
  have hsound : d.Sound := exec_inv_of_step (fun _ _ _ hs h => hs.step h) sound_start hrun
  obtain ⟨rfl, rfl, rfl, rfl⟩ := same_exec hrun
  refine ⟨?_, moves, hsound.written_le, fun h => hsound.greeted_of_ok (result_eq_some h),
    fun error h => hsound.greeted_of_error (result_eq_some h), fun hprompt hend => ?_⟩
  · exact subsides.length_le trivial (allSteps_of_forall (fun _ _ => trivial) _ _) hrun
  · have hwithin : Within (now + (2 * d.timeouts.connect + 3 * d.timeouts.handshake)) d :=
      exec_inv (fun _ _ _ hs hC h => hs.step hC h) (.inr le_rfl) hprompt hrun
    exact (Nat.le_add_right ..).trans (hwithin.resolve_left hend)

end Run

/-- An `Open` whose data connection is carried by WebSocket, from its target to the
end of the relay. -/
def dialThrough : List (Instant × DialEvent) :=
  [(1, .ready), (2, .ready), (3, .ready), (4, .ready), (5, .wrote .done), (9, .relayed 7 8)]

/-- The task after that run. -/
def dialed : Option Dial :=
  exec step (start ⟨⟨webService.id, ⟨Vector.replicate 16 9⟩⟩, webService⟩
    ⟨Vector.replicate 16 7⟩ (.tcpTls true) .default 0) dialThrough

theorem open_comes_to_one_end_greeted :
    ∃ d, dialed = some d ∧ d.result = some (.ok ()) ∧ d.greeted = true := by
  obtain ⟨d, hrun, hresult⟩ : ∃ d, dialed = some d ∧ d.result = some (.ok ()) := by decide
  exact ⟨d, hrun, hresult, (open_comes_to_one_end hrun).2.2.2.1 hresult⟩

end Dial

end Eggtunnel
