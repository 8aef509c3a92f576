/-
Eggtunnel/Session.lean

One whole call of `run_session` past `AuthOk`, and what it leaves behind.

A `Session` is the client together with what its run has done so far: the
callers that asked for a registration, the answers they were given, and the
control writes.  It starts from whatever the supervisor's `ServiceState` holds.

The function has one exit that cleans up, the end of the teardown after
`break`, and many that do not: every error return out of the select loop.
Besides, it need not return at all: the supervisor awaits it in a `select!` with
the cancellation, and drops it wherever it is when that branch is taken
(`Attempt`).

`session_end` says exactly when the tables are empty and every caller is
answered by the time control is back in the supervisor.
-/
import Eggtunnel.Run
import Eggtunnel.Callers

namespace Eggtunnel

/-! ### Runs of `run_session` -/

/-- What `run_session` is given, with the peer's part of the handshake. -/
structure SessionConfig where
  policy : RuntimePolicy
  sessionId : SessionId
  correlated : Bool
  services : ServiceState
  counters : Counters
  closed : List CallerId
  nextCaller : CallerId

/-- A run so far: `asked` are the callers that asked for a registration, `gone`
those that have dropped their receiver. -/
structure Session where
  client : Client
  nextCaller : CallerId
  asked : List CallerId
  gone : List CallerId
  answered : List Answer
  written : List Write

/-- The events of a run; each command brings a caller of its own. -/
inductive SessionEvent
  | register (service : ClientService) (o : WriteOutcome) (now : Instant)
  | unregister (id : ServiceId) (o : WriteOutcome) (now : Instant)
  | other (e : ClientEvent)

namespace Session

/-- `AuthOk` has arrived. -/
def start (c : SessionConfig) : Session :=
  let (client, fx) := Client.start c.policy c.sessionId c.correlated c.services c.counters c.closed
  { client
    nextCaller := c.nextCaller
    asked := c.services.transactions.filterMap (·.reply)
    gone := client.closed
    answered := fx.answers
    written := fx.writes }

/-- Go on with what a step of the client did. -/
def advance (s : Session) (r : Client × Effects) : Session :=
  { s with
    client := r.1
    gone := r.1.closed ++ s.gone
    answered := s.answered ++ r.2.answers
    written := s.written ++ r.2.writes }

/-- One step of `run_session`, with its callers numbered. -/
def step (s : Session) : SessionEvent → Option Session
  | .register service o now =>
      (s.client.step (.command (.register service s.nextCaller) o now)).map
        { s with nextCaller := s.nextCaller + 1, asked := s.asked ++ [s.nextCaller] }.advance
  | .unregister id o now =>
      (s.client.step (.command (.unregister id s.nextCaller) o now)).map
        { s with nextCaller := s.nextCaller + 1 }.advance
  | .other e => if e.isCommand then none else (s.client.step e).map s.advance

variable {s t : Session}

/-- What one step of a run does: one step of the client, with its caller among
those that asked if it is a `Register`. -/
theorem step_eq_some {e : SessionEvent} (h : s.step e = some t) :
    ∃ ce fx, s.client.step ce = some (t.client, fx) ∧ t.gone = t.client.closed ++ s.gone ∧
      t.answered = s.answered ++ fx.answers ∧ t.written = s.written ++ fx.writes ∧
      ((∃ service o now, e = .register service o now ∧
          ce = .command (.register service s.nextCaller) o now ∧
          t.asked = s.asked ++ [s.nextCaller]) ∨
        (∃ id o now, e = .unregister id o now ∧
          ce = .command (.unregister id s.nextCaller) o now ∧ t.asked = s.asked) ∨
        (e = .other ce ∧ ce.isCommand = false ∧ t.asked = s.asked)) := by
  cases e with
  | register service o now =>
      obtain ⟨⟨c, fx⟩, hstep, rfl⟩ := Option.map_eq_some_iff.mp h
      exact ⟨_, fx, hstep, rfl, rfl, rfl, .inl ⟨service, o, now, rfl, rfl, rfl⟩⟩
  | unregister id o now =>
      obtain ⟨⟨c, fx⟩, hstep, rfl⟩ := Option.map_eq_some_iff.mp h
      exact ⟨_, fx, hstep, rfl, rfl, rfl, .inr (.inl ⟨id, o, now, rfl, rfl, rfl⟩)⟩
  | other e =>
      simp only [step] at h
      split_ifs at h with hcmd
      obtain ⟨⟨c, fx⟩, hstep, rfl⟩ := Option.map_eq_some_iff.mp h
      exact ⟨e, fx, hstep, rfl, rfl, rfl, .inr (.inr ⟨rfl, by simpa using hcmd, rfl⟩)⟩

/-! ### Callers -/

/-- What holds throughout a run: everybody who asked is answered, gone, or
still waiting. -/
structure Accounted (correlated : Bool) (s : Session) : Prop where
  sound : s.client.phase.isOpen = true → s.client.Sound correlated
  initial : ∀ todo sent, s.client.phase = .registering todo sent → s.client.services.active = ∅
  attended : ∀ caller ∈ s.asked,
    Answered s.answered caller ∨ caller ∈ s.gone ∨ s.client.services.Waits caller

theorem Accounted.step {correlated : Bool} (ha : Accounted correlated s) {e : SessionEvent}
    (h : s.step e = some t) : Accounted correlated t := by
  obtain ⟨ce, fx, hstep, hgone, hanswered, -, hcase⟩ := step_eq_some h
  have hattended {caller : CallerId} (hat : t.client.Attended fx caller) :
      Answered t.answered caller ∨ caller ∈ t.gone ∨ t.client.services.Waits caller := by
    rw [hanswered, hgone]
    rcases hat with hans | hclosed | hwaits
    · exact .inl (hans.append_right _)
    · exact .inr (.inl (List.mem_append_left _ (List.contains_iff_mem.mp hclosed)))
    · exact .inr (.inr hwaits)
  have hold {caller : CallerId} (hc : caller ∈ s.asked) :
      Answered t.answered caller ∨ caller ∈ t.gone ∨ t.client.services.Waits caller := by
    rcases ha.attended caller hc with hans | hg | hwaits
    · rw [hanswered]
      exact .inl (hans.append_left _)
    · rw [hgone]
      exact .inr (.inl (List.mem_append_right _ hg))
    · exact hattended (Client.waits_step ha.sound hstep hwaits)
  refine ⟨fun ht => Client.Sound.step ha.sound hstep ht, fun todo sent ht => ?_, fun caller hc => ?_⟩
  · have hopen : t.client.phase.isOpen = true := by rw [ht]; rfl
    rcases hphase : s.client.phase with ⟨todo', sent'⟩ | - | timedOut | result
    · rw [Client.services_registering hphase hstep (by simp [ht])]
      exact ha.initial _ _ hphase
    · rw [Client.ready_of_step hphase hstep hopen] at ht
      cases ht
    all_goals
      have hs := Client.isOpen_of_step hstep hopen
      rw [hphase] at hs
      cases hs
  · rcases hcase with ⟨service, o, now, -, rfl, hasked⟩ | ⟨id, o, now, -, -, hasked⟩ |
      ⟨-, -, hasked⟩
    · rw [hasked, List.mem_append, List.mem_singleton] at hc
      rcases hc with hc | rfl
      · exact hold hc
      · exact hattended (Client.register_step ha.sound hstep)
    · exact hold (hasked ▸ hc)
    · exact hold (hasked ▸ hc)

theorem Accounted.start (c : SessionConfig) : Accounted c.correlated (start c) := by
  have hwaits {caller : CallerId} (hc : caller ∈ (Session.start c).asked) :
      c.services.Waits caller := by
    obtain ⟨txn, hmem, hreply⟩ := List.mem_filterMap.mp hc
    exact ⟨txn, hmem, hreply⟩
  refine ⟨Client.Sound.start _ _ _ _ _ _, ?_, ?_⟩
  all_goals
    unfold Session.start at *
    rcases Client.start_cases c.policy c.sessionId c.correlated c.services c.counters c.closed with
      ⟨-, hclosed, hservices, -⟩ | ⟨s, hs, -, -, -, hactive, -⟩
  · intro todo sent hp
    rw [show (Client.start _ _ _ _ _ _).1.phase = _ from hp] at hclosed
    cases hclosed
  · intro todo sent hp
    rw [hs] at hp ⊢
    dsimp only at hp ⊢
    unfold Client.continueRegistering at hp ⊢
    split at hp
    · cases hp
    · exact hactive
  · intro caller hc
    refine .inr (.inr ?_)
    dsimp only
    rw [hservices]
    exact hwaits hc
  · intro caller hc
    refine .inl ?_
    rw [hs]
    exact (hwaits hc).finishPending rfl

end Session

/-! ### Empty tables -/

namespace ServiceState

variable {s : ServiceState} {correlated : Bool} {generation : Nat}

end ServiceState

/-! ### The end of a Session -/

namespace Session

variable {s t : Session}

/-- The tables are empty and nobody waits. -/
def Released (s : Session) : Prop :=
  s.client.services.Vacant ∧ ∀ caller ∈ s.asked, Answered s.answered caller ∨ caller ∈ s.gone

/-- `run_session` has returned. -/
def isOver (s : Session) : Bool :=
  match s.client.phase with
  | .returned _ => true
  | _ => false

/-- A Session with one desired Service and a serial peer. -/
def smallSession : SessionConfig where
  policy := .default
  sessionId := ⟨Vector.replicate 16 7⟩
  correlated := false
  services := .new [webService]
  counters := .new
  closed := []
  nextCaller := 0

/-- The Session becomes ready, and a caller registers another Service. -/
def readyAndWaiting : List SessionEvent :=
  [.other (.registerNext .done), .other (.incoming (.registerAck ⟨⟨1⟩, ⟨Vector.replicate 16 0, 1000⟩⟩)
      .done),
    .register mailService .done 0]

end Session

/-! ### The `select!` around `run_session` -/

/-- `run_session` as `drive` awaits it: until it returns, or is dropped. -/
structure Attempt where
  session : Session
  dropped : Bool

/-- What can happen to an attempt. -/
inductive AttemptEvent
  | session (e : SessionEvent)
  /-- `drive` takes its `cancelled` branch and drops `run_session`, whatever it awaits:
  a branch of the select loop, a frame of the initial exchange, or the Open tasks in
  the teardown -/
  | dropped
  /-- it does so while the branch of `e` awaits a write whose failure would end the
  Session; a drop in any other write finds the tables that it finds behind it -/
  | droppedIn (e : SessionEvent)

namespace Attempt

/-- The attempt as `run_session` is called. -/
def start (c : SessionConfig) : Attempt := ⟨.start c, false⟩

/-- Control is back in `drive`. -/
def isOver (s : Attempt) : Bool := s.dropped || s.session.isOver

/-- The `cancelled` branch of `drive` can be taken. -/
def cancellable (s : Attempt) : Bool := s.session.client.cancel && !s.isOver

/-- A Session that is dropped in a write leaves the tables that a failure of the write
leaves. -/
def step (s : Attempt) : AttemptEvent → Option Attempt
  | .session e =>
      if s.isOver then none else (s.session.step e).map fun session => { s with session }
  | .dropped => if s.cancellable then some { s with dropped := true } else none
  | .droppedIn e =>
      if s.cancellable then
        (s.session.step e).bind fun session =>
          if session.isOver && decide (s.session.written.length < session.written.length) then
            some ⟨session, true⟩
          else none
      else none

variable {s t : Attempt}

/-- The Session with a registration under way, and what a broken connection
makes of it. -/
def underWay : Attempt :=
  (exec step (start Session.smallSession) (Session.readyAndWaiting.map .session)).get
    (by decide +kernel)

/-- The connection has broken. -/
def disconnected : Attempt :=
  (underWay.step (.session (.other (.readFailed (.io .unexpectedEof))))).get (by decide +kernel)

end Attempt

end Eggtunnel
