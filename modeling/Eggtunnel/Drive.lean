/-
Eggtunnel/Drive.lean

`drive`: the client's outer loop, over any number of Sessions.

Between Sessions the loop applies commands to the `ServiceState` directly; once
the handshake is through, `run_session` has it; when that returns, the
supervisor decides whether to try again.  How long an attempt or a backoff
takes is left to the schedule.

Each step performs a list of operations on the `ServiceState`
(`Drive.operations`), and does nothing else to it (`step_books`).  `Books` are
that state together with the answers given and what the operations are
remembered for, so that a property of whole runs follows from one of
operations.
-/
import Eggtunnel.Run
import Eggtunnel.Operations
import Eggtunnel.Reconnect
import Eggtunnel.Callers

namespace Eggtunnel

/-! ### Books -/

/-- A `ServiceState` with what has happened to it. -/
structure Books where
  services : ServiceState
  answered : List Answer
  history : List Record

namespace Books

/-- One operation is entered. -/
def apply (b : Books) (op : Operation) : Books where
  services := (op.apply b.services).1
  answered := b.answered ++ (op.apply b.services).2
  history := b.history ++ op.record b.services

/-- Several, in their order. -/
def run (b : Books) (ops : List Operation) : Books := ops.foldl apply b

/-- What was in the books stays in front. -/
theorem run_eq (b : Books) (ops : List Operation) :
    b.run ops = ⟨(run ⟨b.services, [], []⟩ ops).services,
      b.answered ++ (run ⟨b.services, [], []⟩ ops).answered,
      b.history ++ (run ⟨b.services, [], []⟩ ops).history⟩ := by
  induction ops generalizing b with
  | nil => simp [run]
  | cons op ops ih =>
      show (b.apply op).run ops = _
      have hrest := ih (apply ⟨b.services, [], []⟩ op)
      have hfirst : run ⟨b.services, [], []⟩ (op :: ops)
          = (apply ⟨b.services, [], []⟩ op).run ops := rfl
      rw [hfirst, ih, hrest]
      simp [apply]

end Books

/-! ### The operations of a Session -/

namespace Client

/-- What follows an accepted `begin`, once its write has ended. -/
def afterBegin (s : Client) (service : ClientService) (o : WriteOutcome) (now : Instant) :
    List Operation :=
  match writeBudgeted (.registerService service.registration) o with
  | .ok () => [.armDeadline service.id (now + s.policy.timeouts.handshake)]
  | .error .timeout =>
      match s.services.mode with
      | .legacySerial => [.loseReply]
      | .correlatedBounded _ => [.abandon service.id]
  | .error _ => []

/-- The operations that a step of `run_session` performs, in their order. -/
def operations (s : Client) (e : ClientEvent) : List Operation :=
  match e, s.phase with
  | .incoming (.registerAck ack) _, .registering [service] true =>
      if ack.serviceId = service.id then [.activateInitial] else []
  | .incoming (.registerAck ack) _, .ready =>
      [.acknowledge ack.serviceId s.generation s.isClosed ack.effectiveBind]
  | .incoming (.error error) _, .ready => [.reject (registrationErrorCode error.code)]
  | .incoming (.registerReject reject) _, .ready =>
      if s.correlated then
        [.takeReject reject.serviceId s.generation (registrationErrorCode reject.code)]
      else []
  | .registrationDeadline now, .ready => [.expireOverdue now]
  | .command (.register service reply) o now, .ready =>
      let op := Operation.begin service s.generation reply (s.isClosed reply)
        s.policy.limits.servicesPerSession
      op :: if op.record s.services = [] then [] else s.afterBegin service o now
  | .command (.unregister id _) _ _, .ready => [.unregister id]
  | .tornDown, .draining timedOut =>
      [.finishPending (if timedOut then .timeout else if s.cancel then .cancelled
        else .disconnected), .clearActive]
  | _, _ => []

/-- `r` is the outcome of the operations on the Services, and of nothing else. -/
def Performs (services : ServiceState) (ops : List Operation) (r : Client × Effects) : Prop :=
  (Books.run ⟨services, [], []⟩ ops).services = r.1.services ∧
    (Books.run ⟨services, [], []⟩ ops).answered = r.2.answers

variable {s t : Client} {fx : Effects}

theorem performs_nil {services : ServiceState} {r : Client × Effects}
    (hservices : r.1.services = services) (hanswers : r.2.answers = []) :
    Performs services [] r :=
  ⟨hservices.symm, hanswers.symm⟩

/-- A single operation. -/
theorem performs_single {services : ServiceState} {op : Operation} {r : Client × Effects}
    (h : op.apply services = (r.1.services, r.2.answers)) : Performs services [op] r := by
  refine ⟨congrArg Prod.fst h, ?_⟩
  show [] ++ (op.apply services).2 = _
  rw [h]
  rfl

theorem performs_onRegisterAck (ack : RegisterAck) (o : WriteOutcome) :
    Performs s.services [.acknowledge ack.serviceId s.generation s.isClosed ack.effectiveBind]
      (s.onRegisterAck ack o) := by
  refine performs_single ?_
  simp only [Operation.apply, onRegisterAck]
  rcases s.services.takeAck ack.serviceId s.generation s.isClosed with
    ⟨u, ⟨service, reply⟩ | - | reply | -⟩ <;> rfl

theorem performs_onError (error : ErrorMessage) :
    Performs s.services [.reject (registrationErrorCode error.code)] (s.onError error) := by
  refine performs_single ?_
  simp only [Operation.apply, onError]
  rcases s.services.reject with ⟨u, - | reply⟩ <;> rfl

theorem performs_onRegisterReject (reject : RegisterReject) :
    Performs s.services (if s.correlated then
        [.takeReject reject.serviceId s.generation (registrationErrorCode reject.code)] else [])
      (s.onRegisterReject reject) := by
  unfold onRegisterReject
  split_ifs
  · refine performs_single ?_
    simp only [Operation.apply]
    rcases s.services.takeReject reject.serviceId s.generation with ⟨u, reply | reply | -⟩ <;> rfl
  · exact performs_nil rfl rfl

theorem performs_onDeadline (now : Instant) :
    Performs s.services [.expireOverdue now] (s.onDeadline now) := by
  refine performs_single ?_
  simp only [Operation.apply, onDeadline]
  rcases s.services.expireOverdue now with ⟨u, answers, - | - | count⟩ <;> rfl

theorem performs_onUnregister (id : ServiceId) (reply : CallerId) (o : WriteOutcome) :
    Performs s.services [.unregister id] (s.onUnregister id reply o) := by
  refine performs_single ?_
  simp only [Operation.apply, onUnregister]
  rcases s.services.unregister id with ⟨u, answers, - | -⟩
  · rfl
  · dsimp only
    split <;> rfl

theorem performs_onTornDown (timedOut : Bool) :
    Performs s.services [.finishPending (if timedOut then .timeout else if s.cancel then .cancelled
        else .disconnected), .clearActive] (s.onTornDown timedOut) := by
  refine ⟨rfl, ?_⟩
  show [] ++ _ ++ [] = _
  rw [List.append_nil]
  rfl

/-- Behind an accepted `begin`. -/
theorem performs_writeRegistration {op : Operation} {u : ServiceState}
    (happly : op.apply s.services = (u, [])) (hmode : u.mode = s.services.mode)
    {service : ClientService} (o : WriteOutcome) (now : Instant) :
    Performs s.services (op :: s.afterBegin service o now) (s.writeRegistration u service o now) := by
  have hrun (ops : List Operation) : Books.run ⟨s.services, [], []⟩ (op :: ops)
      = Books.run ⟨u, [], op.record s.services⟩ ops := by
    simp only [Books.run, List.foldl_cons, Books.apply, happly, List.nil_append]
  unfold Performs afterBegin writeRegistration
  rw [hrun]
  dsimp only
  cases writeBudgeted (.registerService service.registration) o with
  | ok => exact ⟨rfl, rfl⟩
  | error e =>
      cases e with
      | timeout =>
          obtain ⟨_, _, _, _, _, mode⟩ := u
          rw [← hmode]
          cases mode <;> exact ⟨rfl, rfl⟩
      | _ => exact ⟨rfl, rfl⟩

/-- A registration: `begin`, and what its write ends with. -/
theorem performs_onRegister (service : ClientService) (reply : CallerId) (o : WriteOutcome)
    (now : Instant) :
    Performs s.services (Operation.begin service s.generation reply (s.isClosed reply)
          s.policy.limits.servicesPerSession ::
        if (Operation.begin service s.generation reply (s.isClosed reply)
            s.policy.limits.servicesPerSession).record s.services = [] then []
        else s.afterBegin service o now)
      (s.onRegister service reply o now) := by
  unfold onRegister
  by_cases hfull : s.policy.limits.servicesPerSession
      ≤ s.services.desired.length + s.services.unacknowledged
  · rw [if_pos hfull]
    simp only [Operation.record, if_pos hfull]
    exact performs_single (by simp only [Operation.apply, if_pos hfull])
  rw [if_neg hfull]
  by_cases hclosed : s.isClosed reply = true
  · rw [if_pos hclosed]
    simp only [Operation.record, if_neg hfull, if_pos hclosed]
    exact performs_single (by simp only [Operation.apply, if_neg hfull, if_pos hclosed])
  rw [if_neg hclosed]
  rcases h : s.services.begin service s.generation reply with ⟨u, e | ok⟩
  · simp only [Operation.record, if_neg hfull, if_neg hclosed, h]
    exact performs_single (by simp only [Operation.apply, if_neg hfull, if_neg hclosed, h])
  · have hmode := ServiceState.mode_begin h
    have happly : (Operation.begin service s.generation reply (s.isClosed reply)
        s.policy.limits.servicesPerSession).apply s.services = (u, []) := by
      simp only [Operation.apply, if_neg hfull, if_neg hclosed, h]
    simp only [Operation.record, if_neg hfull, if_neg hclosed, h, reduceCtorEq, if_false]
    exact performs_writeRegistration happly hmode o now

/-- The initial exchange activates the Services when it is complete. -/
theorem performs_initialResponse {service : ClientService} {todo : List ClientService}
    (hphase : s.phase = .registering (service :: todo) true) (m : Message) (o : WriteOutcome) :
    Performs s.services (s.operations (.incoming m o)) (s.initialResponse service todo m, {}) := by
  cases m with
  | registerAck ack =>
      simp only [initialResponse]
      cases todo with
      | nil =>
          simp only [operations, hphase]
          split_ifs
          · exact performs_single rfl
          · exact performs_nil rfl rfl
      | cons next rest =>
          simp only [operations, hphase]
          split_ifs <;> exact performs_nil rfl rfl
  | _ =>
      simp only [operations, hphase]
      exact performs_nil rfl rfl

theorem performs_onIncoming (hphase : s.phase = .ready) (m : Message) (o : WriteOutcome) :
    Performs s.services (s.operations (.incoming m o)) (s.onIncoming m o) := by
  cases m with
  | registerAck ack =>
      simp only [operations, hphase]
      exact performs_onRegisterAck ack o
  | error error =>
      simp only [operations, hphase]
      exact performs_onError error
  | registerReject reject =>
      simp only [operations, hphase]
      exact performs_onRegisterReject reject
  | «open» frame => exact performs_nil (kept_onOpen s frame).services rfl
  | ping ping =>
      refine performs_nil ?_ rfl
      simp only [onIncoming, trySend]
      split_ifs <;> rfl
  | pong pong => exact performs_nil (kept_onPong s pong).services rfl
  | _ => exact performs_nil rfl rfl

/-- **A step of `run_session` performs its operations on the Services**, and
answers callers with what they say. -/
theorem performs_of_step {e : ClientEvent} (h : s.step e = some (t, fx)) :
    Performs s.services (s.operations e) (t, fx) := by
  have hstill (hops : s.operations e = []) (hservices : t.services = s.services)
      (hanswers : fx.answers = []) : Performs s.services (s.operations e) (t, fx) := by
    rw [hops]
    exact performs_nil hservices hanswers
  cases did_of_step h with
  | cancelRequested | callerGone | readFailed | openJoined => exact hstill rfl rfl rfl
  | registerNext _ heq =>
      unfold registerNext at heq
      dsimp only at heq
      split at heq <;> cases heq <;> exact hstill rfl rfl rfl
  | initialResponse hphase => exact performs_initialResponse hphase _ _
  | initialReadFailed => exact hstill rfl rfl rfl
  | incoming hready heq =>
      rw [← heq]
      exact performs_onIncoming hready _ _
  | cancelled _ heq =>
      cases heq
      exact hstill rfl rfl rfl
  | heartbeatTick => exact hstill rfl (kept_onHeartbeatTick s _).services rfl
  | registrationDeadline hready heq =>
      simp only [← heq, operations, hready]
      exact performs_onDeadline _
  | @outbound m rest o _ _ _ hqueue heq =>
      obtain ⟨hkept, -, hanswers⟩ := kept_onOutbound (s := s) (o := o) hqueue
      rw [heq] at hkept hanswers
      exact hstill rfl hkept.services hanswers
  | register hready heq =>
      simp only [← heq, operations, hready]
      exact performs_onRegister _ _ _ _
  | unregister hready heq =>
      simp only [← heq, operations, hready]
      exact performs_onUnregister _ _ _
  | openFinished | openDrained => exact hstill rfl (kept_onOpenFinished s _ _).services rfl
  | tornDown hphase heq =>
      simp only [← heq, operations, hphase]
      exact performs_onTornDown _

/-! ### What a Session never changes -/

/-- The policy, the generation and the callers that are gone. -/
def Fixed (s t : Client) : Prop :=
  t.policy = s.policy ∧ t.generation = s.generation ∧ t.closed = s.closed

theorem fixed_trySend (s : Client) (m : Message) : Fixed s (s.trySend m) := by
  unfold trySend
  split_ifs <;> exact ⟨rfl, rfl, rfl⟩

theorem fixed_continueRegistering (s : Client) (todo : List ClientService) :
    Fixed s (s.continueRegistering todo) := by
  unfold continueRegistering
  split <;> exact ⟨rfl, rfl, rfl⟩

theorem fixed_initialResponse (s : Client) (service : ClientService) (todo : List ClientService)
    (m : Message) : Fixed s (s.initialResponse service todo m) := by
  unfold initialResponse
  split
  · split_ifs
    · exact fixed_continueRegistering _ todo
    · exact ⟨rfl, rfl, rfl⟩
  · exact ⟨rfl, rfl, rfl⟩

theorem fixed_onOpen (s : Client) (frame : Open) : Fixed s (s.onOpen frame) := by
  unfold onOpen
  split
  · exact fixed_trySend s _
  · split_ifs
    · exact ⟨rfl, rfl, rfl⟩
    · exact fixed_trySend s _

theorem fixed_onPong (s : Client) (pong : Pong) : Fixed s (s.onPong pong) := by
  unfold onPong
  split
  · split_ifs <;> exact ⟨rfl, rfl, rfl⟩
  · exact ⟨rfl, rfl, rfl⟩

theorem fixed_onIncoming (s : Client) (m : Message) (o : WriteOutcome) :
    Fixed s (s.onIncoming m o).1 := by
  unfold onIncoming
  split
  · exact fixed_onOpen s _
  · exact fixed_trySend s _
  · exact fixed_onPong s _
  · unfold onRegisterAck
    split <;> exact ⟨rfl, rfl, rfl⟩
  · unfold onError
    split <;> exact ⟨rfl, rfl, rfl⟩
  · unfold onRegisterReject
    split_ifs
    · split <;> exact ⟨rfl, rfl, rfl⟩
    · exact ⟨rfl, rfl, rfl⟩
  · exact ⟨rfl, rfl, rfl⟩
  · exact ⟨rfl, rfl, rfl⟩

theorem fixed_onRegister (s : Client) (service : ClientService) (reply : CallerId)
    (o : WriteOutcome) (now : Instant) : Fixed s (s.onRegister service reply o now).1 := by
  unfold onRegister
  split_ifs
  · exact ⟨rfl, rfl, rfl⟩
  · exact ⟨rfl, rfl, rfl⟩
  · split
    · exact ⟨rfl, rfl, rfl⟩
    · unfold writeRegistration
      dsimp only
      split
      · exact ⟨rfl, rfl, rfl⟩
      · split <;> exact ⟨rfl, rfl, rfl⟩
      · exact ⟨rfl, rfl, rfl⟩

theorem fixed_onUnregister (s : Client) (id : ServiceId) (reply : CallerId) (o : WriteOutcome) :
    Fixed s (s.onUnregister id reply o).1 := by
  unfold onUnregister
  dsimp only
  split
  · split <;> exact ⟨rfl, rfl, rfl⟩
  · exact ⟨rfl, rfl, rfl⟩

theorem fixed_onOpenFinished (s : Client) (task : OpenTask) (reject : Bool) :
    Fixed s (s.onOpenFinished task reject) := by
  unfold onOpenFinished
  dsimp only
  split_ifs
  · exact fixed_trySend _ _
  · exact ⟨rfl, rfl, rfl⟩

/-- A step changes nothing of that, but for a caller that goes. -/
theorem fixed_step {e : ClientEvent} (h : s.step e = some (t, fx)) :
    t.policy = s.policy ∧ t.generation = s.generation ∧ s.closed ⊆ t.closed := by
  have hfix (hu : Fixed s t) :
      t.policy = s.policy ∧ t.generation = s.generation ∧ s.closed ⊆ t.closed :=
    ⟨hu.1, hu.2.1, hu.2.2 ▸ List.Subset.refl _⟩
  have hpair {r : Client × Effects} (heq : r = (t, fx)) (hr : Fixed s r.1) :
      t.policy = s.policy ∧ t.generation = s.generation ∧ s.closed ⊆ t.closed := by
    rw [heq] at hr
    exact hfix hr
  cases did_of_step h with
  | cancelRequested | initialReadFailed | readFailed | openJoined => exact hfix ⟨rfl, rfl, rfl⟩
  | callerGone => exact ⟨rfl, rfl, List.subset_cons_self _ _⟩
  | registerNext _ heq =>
      refine hpair heq ?_
      unfold registerNext
      dsimp only
      split <;> exact ⟨rfl, rfl, rfl⟩
  | initialResponse => exact hfix (fixed_initialResponse s _ _ _)
  | incoming _ heq => exact hpair heq (fixed_onIncoming s _ _)
  | cancelled _ heq | tornDown _ heq => exact hpair heq ⟨rfl, rfl, rfl⟩
  | heartbeatTick =>
      refine hfix ?_
      unfold onHeartbeatTick
      split_ifs <;> exact ⟨rfl, rfl, rfl⟩
  | registrationDeadline _ heq =>
      refine hpair heq ?_
      unfold onDeadline
      split <;> exact ⟨rfl, rfl, rfl⟩
  | outbound _ _ heq =>
      refine hpair heq ?_
      unfold onOutbound
      dsimp only
      split <;> exact ⟨rfl, rfl, rfl⟩
  | register _ heq => exact hpair heq (fixed_onRegister s _ _ _ _)
  | unregister _ heq => exact hpair heq (fixed_onUnregister s _ _ _)
  | openFinished | openDrained => exact hfix (fixed_onOpenFinished s _ _)

end Client

/-! ### The outer loop -/

/-- The loop of `validate_config` over the configured Services. -/
def uniqueServices (ids : List ServiceId) (names : List ServiceName) : List ClientService → Bool
  | [] => true
  | service :: rest =>
      !ids.contains service.id && !names.contains service.name &&
        uniqueServices (service.id :: ids) (service.name :: names) rest

/-- The Service checks of `validate_config`. -/
def validateServices (policy : RuntimePolicy) (services : List ClientService) :
    Except TunnelError Unit :=
  if policy.limits.servicesPerSession < services.length then
    .error (.configuration "service count exceeds the configured per-session limit")
  else if uniqueServices [] [] services then .ok ()
  else .error (.configuration "service IDs and names must be unique")

/-- What `drive` is called with, as far as the Services go. -/
structure DriveConfig where
  policy : RuntimePolicy
  services : List ClientService

/-- Where `drive` stands. -/
inductive Stage
  /-- no Session: trying to establish one, or waiting to -/
  | apart (services : ServiceState) (counters : Counters) (closed : List CallerId)
  | session (client : Client)
  /-- out of the loop -/
  | stopped (services : ServiceState) (closed : List CallerId)

/-- A run of `drive` so far; `answered` and `history` are never read. -/
structure Drive where
  policy : RuntimePolicy
  stage : Stage
  nextCaller : CallerId
  answered : List Answer
  history : List Record

/-- The events of a run; each command brings a caller of its own. -/
inductive DriveEvent
  | register (service : ClientService) (o : WriteOutcome) (now : Instant)
  | unregister (id : ServiceId) (o : WriteOutcome) (now : Instant)
  /-- a caller drops its receiver while there is no Session -/
  | callerGone (caller : CallerId)
  /-- the attempt ends before `AuthOk` -/
  | attemptFailed (e : TunnelError)
  /-- `AuthOk` arrives -/
  | authenticated (sessionId : SessionId) (correlated : Bool)
  | client (e : ClientEvent)
  /-- what `run_session` returned reaches the supervisor -/
  | sessionOver
  /-- the cancellation ends the loop, dropping a running Session -/
  | stop

namespace Drive

/-- Before the first attempt. -/
def init (c : DriveConfig) : Drive where
  policy := c.policy
  stage := .apart (.new c.services) .new []
  nextCaller := 0
  answered := []
  history := []

/-- The registration state, wherever it is. -/
def services (s : Drive) : ServiceState :=
  match s.stage with
  | .apart services _ _ => services
  | .session client => client.services
  | .stopped services _ => services

/-- The callers that have dropped their receiver. -/
def closed (s : Drive) : List CallerId :=
  match s.stage with
  | .apart _ _ closed => closed
  | .session client => client.closed
  | .stopped _ closed => closed

/-- The phase of the Session, if there is one. -/
def phase? (s : Drive) : Option Phase :=
  match s.stage with
  | .session client => some client.phase
  | _ => none

/-- What the supervisor has done to its callers. -/
def books (s : Drive) : Books := ⟨s.services, s.answered, s.history⟩

/-- The wire mode of a Session. -/
def mode (s : Drive) (correlated : Bool) : RegistrationMode :=
  if correlated then .correlatedBounded s.policy.limits.clientCommandQueue else .legacySerial

/-- The operations that a step performs, in their order. -/
def operations (s : Drive) (e : DriveEvent) : List Operation :=
  match e, s.stage with
  | .register _ _ _, .apart _ _ _ => [.decline s.nextCaller]
  | .register service o now, .session c =>
      c.operations (.command (.register service s.nextCaller) o now)
  | .unregister id _ _, .apart _ _ _ => [.unregister id]
  | .unregister id o now, .session c =>
      c.operations (.command (.unregister id s.nextCaller) o now)
  | .authenticated _ correlated, .apart services counters _ =>
      if counters.sessionGeneration + 1 < 2 ^ 64 then
        .setMode (s.mode correlated) :: .clearActive ::
          if services.desired = [] then [.activateInitial] else []
      else []
  | .client e, .session c => c.operations e
  | _, _ => []

/-- Back in the loop with the result of an attempt. -/
def finish (s : Drive) (result : Except TunnelError Unit) (services : ServiceState)
    (counters : Counters) (closed : List CallerId) : Drive :=
  match ReconnectSupervisor.finish result counters with
  | (counters, .retry) => { s with stage := .apart services counters closed }
  | (_, .terminal) => { s with stage := .stopped services closed }

/-- Go on with what a step of the Session did. -/
def advance (s : Drive) (ops : List Operation) (r : Client × Effects) : Drive :=
  { s with
    stage := .session r.1
    answered := s.answered ++ r.2.answers
    history := (s.books.run ops).history }

/-- One move of the supervisor or of its Session. -/
def step (s : Drive) (e : DriveEvent) : Option Drive :=
  let ops := s.operations e
  match e, s.stage with
  -- `apply_disconnected_command`
  | .register _ _ _, .apart _ _ _ =>
      some { s with
        nextCaller := s.nextCaller + 1
        answered := s.answered ++ [(s.nextCaller, .error .disconnected)] }
  | .unregister id _ _, .apart services counters closed =>
      let (services, answers, _) := services.unregister id
      some { s with
        stage := .apart services counters closed
        nextCaller := s.nextCaller + 1
        answered := s.answered ++ answers
        history := s.history ++ [.unregistered id] }
  | .callerGone caller, .apart services counters closed =>
      some { s with stage := .apart services counters (caller :: closed) }
  | .attemptFailed e, .apart services counters closed =>
      some (s.finish (.error e) services counters closed)
  | .authenticated sessionId correlated, .apart services counters closed =>
      some (s.advance ops
        (Client.start s.policy sessionId correlated services counters closed))
  | .register service o now, .session c =>
      (c.step (.command (.register service s.nextCaller) o now)).map fun r =>
        { s.advance ops r with nextCaller := s.nextCaller + 1 }
  | .unregister id o now, .session c =>
      (c.step (.command (.unregister id s.nextCaller) o now)).map fun r =>
        { s.advance ops r with nextCaller := s.nextCaller + 1 }
  | .client e, .session c => if e.isCommand then none else (c.step e).map (s.advance ops)
  | .sessionOver, .session c =>
      match c.phase with
      | .returned result => some (s.finish result c.services c.counters c.closed)
      | _ => none
  | .stop, .apart services _ closed => some { s with stage := .stopped services closed }
  | .stop, .session c =>
      if c.cancel then some { s with stage := .stopped c.services c.closed } else none
  | _, _ => none

variable {s t : Drive}

theorem books_advance {services : ServiceState} {ops : List Operation} {r : Client × Effects}
    (hservices : s.services = services) (hr : Client.Performs services ops r) :
    (s.advance ops r).books = s.books.run ops := by
  have hrun := s.books.run_eq ops
  rw [show s.books.services = services from hservices, hr.1, hr.2] at hrun
  rw [hrun]
  show (⟨r.1.services, s.answered ++ r.2.answers, (s.books.run ops).history⟩ : Books) = _
  rw [hrun]
  rfl

theorem books_finish (s : Drive) (result : Except TunnelError Unit) {services : ServiceState}
    (hservices : s.services = services) (counters : Counters) (closed : List CallerId) :
    (s.finish result services counters closed).books = s.books := by
  subst hservices
  unfold finish
  split <;> rfl

/-- The start of a Session performs its operations. -/
theorem performs_start (s : Drive) (sessionId : SessionId) (correlated : Bool)
    {services : ServiceState} {counters : Counters} {closed : List CallerId}
    (hstage : s.stage = .apart services counters closed) :
    Client.Performs services (s.operations (.authenticated sessionId correlated))
      (Client.start s.policy sessionId correlated services counters closed) := by
  simp only [operations, hstage]
  unfold Client.start Counters.beginSession
  by_cases hbegun : counters.sessionGeneration + 1 < 2 ^ 64
  · simp only [if_pos hbegun]
    show Client.Performs services _ (Client.continueRegistering _ services.desired, _)
    have hanswers (l : List Answer) : [] ++ l ++ [] = l := by simp
    rcases services.desired with - | ⟨first, rest⟩
    · rw [if_pos rfl]
      refine ⟨rfl, ?_⟩
      show [] ++ _ ++ [] ++ [] = _
      rw [List.append_nil, hanswers]
      rfl
    · rw [if_neg (List.cons_ne_nil _ _)]
      refine ⟨rfl, ?_⟩
      show [] ++ _ ++ [] = _
      rw [hanswers]
      rfl
  · simp only [if_neg hbegun]
    exact Client.performs_nil rfl rfl

/-- The steps of the loop. -/
inductive Moves (s : Drive) : DriveEvent → Drive → Prop
  | declined {services counters closed service o now}
      (hstage : s.stage = .apart services counters closed) :
      Moves s (.register service o now) { s with
        nextCaller := s.nextCaller + 1
        answered := s.answered ++ [(s.nextCaller, .error .disconnected)] }
  | forgotten {services counters closed id o now}
      (hstage : s.stage = .apart services counters closed) :
      Moves s (.unregister id o now) { s with
        stage := .apart (services.unregister id).1 counters closed
        nextCaller := s.nextCaller + 1
        answered := s.answered ++ (services.unregister id).2.1
        history := s.history ++ [.unregistered id] }
  | gone {services counters closed caller} (hstage : s.stage = .apart services counters closed) :
      Moves s (.callerGone caller) { s with stage := .apart services counters (caller :: closed) }
  | failed {services counters closed e} (hstage : s.stage = .apart services counters closed) :
      Moves s (.attemptFailed e) (s.finish (.error e) services counters closed)
  | started {services counters closed sessionId correlated}
      (hstage : s.stage = .apart services counters closed) :
      Moves s (.authenticated sessionId correlated)
        (s.advance (s.operations (.authenticated sessionId correlated))
          (Client.start s.policy sessionId correlated services counters closed))
  | registered {c service o now r} (hstage : s.stage = .session c)
      (hstep : c.step (.command (.register service s.nextCaller) o now) = some r) :
      Moves s (.register service o now)
        { s.advance (c.operations (.command (.register service s.nextCaller) o now)) r with
          nextCaller := s.nextCaller + 1 }
  | unregistered {c id o now r} (hstage : s.stage = .session c)
      (hstep : c.step (.command (.unregister id s.nextCaller) o now) = some r) :
      Moves s (.unregister id o now)
        { s.advance (c.operations (.command (.unregister id s.nextCaller) o now)) r with
          nextCaller := s.nextCaller + 1 }
  | went {c e r} (hstage : s.stage = .session c) (hcmd : e.isCommand = false)
      (hstep : c.step e = some r) : Moves s (.client e) (s.advance (c.operations e) r)
  | ended {c result} (hstage : s.stage = .session c) (hphase : c.phase = .returned result) :
      Moves s .sessionOver (s.finish result c.services c.counters c.closed)
  | stopped (hrunning : ∀ services closed, s.stage ≠ .stopped services closed) :
      Moves s .stop { s with stage := .stopped s.services s.closed }

theorem moves_of_step {e : DriveEvent} (h : s.step e = some t) : Moves s e t := by
  obtain ⟨policy, stage, nextCaller, answered, history⟩ := s
  cases stage with
  | apart services counters closed =>
      cases e with
      | register service o now =>
          cases h
          exact .declined rfl
      | unregister id o now =>
          cases h
          exact .forgotten rfl
      | callerGone caller =>
          cases h
          exact .gone rfl
      | attemptFailed err =>
          cases h
          exact .failed rfl
      | authenticated sessionId correlated =>
          cases h
          exact .started rfl
      | client | sessionOver => cases h
      | stop =>
          cases h
          exact .stopped (by simp)
  | session c =>
      cases e with
      | register service o now =>
          obtain ⟨r, hstep, rfl⟩ := Option.map_eq_some_iff.mp h
          exact .registered rfl hstep
      | unregister id o now =>
          obtain ⟨r, hstep, rfl⟩ := Option.map_eq_some_iff.mp h
          exact .unregistered rfl hstep
      | client e =>
          simp only [step] at h
          split_ifs at h with hcmd
          obtain ⟨r, hstep, rfl⟩ := Option.map_eq_some_iff.mp h
          exact .went rfl (by simpa using hcmd) hstep
      | sessionOver =>
          simp only [step] at h
          split at h
          · rename_i result hphase
            cases h
            exact .ended rfl hphase
          · cases h
      | stop =>
          simp only [step] at h
          split_ifs at h
          cases h
          exact .stopped (by simp)
      | _ => cases h
  | stopped services closed => cases e <;> cases h

/-- **A step performs its operations on the books**, and nothing else. -/
theorem step_books {e : DriveEvent} (h : s.step e = some t) :
    t.books = s.books.run (s.operations e) := by
  obtain ⟨policy, stage, nextCaller, answered, history⟩ := s
  cases moves_of_step h with
  | declined hstage =>
      cases hstage
      show (⟨_, _, history⟩ : Books) = ⟨_, _, history ++ []⟩
      rw [List.append_nil]
      rfl
  | forgotten hstage =>
      cases hstage
      rfl
  | gone hstage =>
      cases hstage
      rfl
  | failed hstage =>
      cases hstage
      exact books_finish _ _ rfl _ _
  | started hstage =>
      cases hstage
      exact books_advance rfl (performs_start _ _ _ rfl)
  | registered hstage hstep | unregistered hstage hstep | went hstage hcmd hstep =>
      cases hstage
      exact books_advance rfl (Client.performs_of_step hstep)
  | ended hstage hphase =>
      cases hstage
      exact books_finish _ _ rfl _ _
  | stopped hrunning => cases stage <;> rfl

end Drive

/-! ### The representation invariant over runs -/

theorem Books.represented_run {limit : Nat} {b : Books} (hb : b.services.Represented limit)
    {ops : List Operation} (hops : ∀ op ∈ ops, op.Within limit) :
    (b.run ops).services.Represented limit := by
  induction ops generalizing b with
  | nil => exact hb
  | cons op ops ih =>
      refine ih (b := b.apply op) ?_ fun other hmem => hops other (List.mem_cons_of_mem _ hmem)
      exact Operation.represented_apply hb (hops op List.mem_cons_self)

theorem Books.current_run {limit generation : Nat} {b : Books}
    (hb : b.services.Represented limit) (hc : b.services.Current generation)
    {ops : List Operation} (hops : ∀ op ∈ ops, op.Within limit ∧ op.InSession generation) :
    (b.run ops).services.Current generation := by
  induction ops generalizing b with
  | nil => exact hc
  | cons op ops ih =>
      obtain ⟨hwithin, hsession⟩ := hops op List.mem_cons_self
      exact ih (b := b.apply op) (Operation.represented_apply hb hwithin)
        (Operation.current_apply hb hc hsession)
        fun other hmem => hops other (List.mem_cons_of_mem _ hmem)

namespace Client

/-- The operations of a step, by what the step is about. -/
inductive Branch (s : Client) : ClientEvent → List Operation → Prop
  | still {e} : Branch s e []
  | activated {e todo sent} (hphase : s.phase = .registering todo sent) :
      Branch s e [.activateInitial]
  | acknowledged {ack o} :
      Branch s (.incoming (.registerAck ack) o)
        [.acknowledge ack.serviceId s.generation s.isClosed ack.effectiveBind]
  | refused {e error} : Branch s e [.reject error]
  | rejected {e id error} : Branch s e [.takeReject id s.generation error]
  | expired {e now} : Branch s e [.expireOverdue now]
  | begun {service reply o now rest}
      (hrest : rest = [] ∨ (∃ deadline, rest = [.armDeadline service.id deadline]) ∨
        rest = [.loseReply] ∨ rest = [.abandon service.id]) :
      Branch s (.command (.register service reply) o now)
        (.begin service s.generation reply (s.isClosed reply)
          s.policy.limits.servicesPerSession :: rest)
  | unregistered {id reply o now} :
      Branch s (.command (.unregister id reply) o now) [.unregister id]
  | ended {e error timedOut} (hphase : s.phase = .draining timedOut) :
      Branch s e [.finishPending error, .clearActive]

theorem branch_operations (s : Client) (e : ClientEvent) : Branch s e (s.operations e) := by
  unfold operations
  split
  · rename_i hphase
    split_ifs
    · exact .activated hphase
    · exact .still
  · exact .acknowledged
  · exact .refused
  · split_ifs
    · exact .rejected
    · exact .still
  · exact .expired
  · dsimp only
    split_ifs
    · exact .begun (.inl rfl)
    · refine .begun ?_
      unfold afterBegin
      split
      · exact .inr (.inl ⟨_, rfl⟩)
      · split
        · exact .inr (.inr (.inl rfl))
        · exact .inr (.inr (.inr rfl))
      · exact .inl rfl
  · exact .unregistered
  · rename_i hphase
    exact .ended hphase
  · exact .still

/-- The capacity check is the policy's, and the select loop keeps to its own
generation. -/
theorem within_operations (s : Client) (e : ClientEvent) :
    ∀ op ∈ s.operations e, op.Within s.policy.limits.servicesPerSession ∧
      (s.phase = .ready → op.InSession s.generation) := by
  have hbranch := s.branch_operations e
  generalize s.operations e = ops at hbranch ⊢
  cases hbranch with
  | still => simp
  | activated hphase | ended hphase => simp [Operation.Within, hphase]
  | begun hrest =>
      rcases hrest with rfl | ⟨deadline, rfl⟩ | rfl | rfl <;>
        simp [Operation.Within, Operation.InSession]
  | _ => simp [Operation.Within, Operation.InSession]

/-- The exchange ends by activating the desired Services. -/
theorem services_of_ready {s t : Client} {fx : Effects} {e : ClientEvent}
    {todo : List ClientService} {sent : Bool} (hphase : s.phase = .registering todo sent)
    (h : s.step e = some (t, fx)) (ht : t.phase = .ready) :
    t.services = s.services.activateInitial := by
  rcases step_registering hphase h with ⟨-, -, hsame, -⟩ | ⟨service, rest, o, -, -, -, hnext⟩ |
    ⟨service, rest, m, o, -, -, -, rfl, -⟩ | ⟨err, -, rfl, -⟩
  · rw [hsame, hphase] at ht
    cases ht
  · unfold registerNext at hnext
    dsimp only at hnext
    split at hnext <;> (cases hnext; cases ht)
  · unfold initialResponse at ht ⊢
    split at ht
    · split_ifs at ht with hid
      · rw [if_pos hid]
        cases rest with
        | nil => rfl
        | cons next rest => cases ht
    · cases ht
  · cases ht

/-- With every desired Service activated, a Session is current. -/
theorem current_of_activated {correlated : Bool} {s t : Client} {limit : Nat}
    (hr : s.services.Represented limit) (hsound : t.Sound correlated)
    (hservices : t.services = s.services.activateInitial) :
    t.services.Current t.generation where
  stamped txn hmem := (hsound.consistent.stamped txn hmem).1
  tombstoned _ _ hg := hsound.consistent.tombstoned hg
  active service hmem := by
    rw [hservices] at hmem ⊢
    refine Table.lookup_ofList ?_ (List.mem_map_of_mem hmem)
    have hids : (s.services.desired.map (·.id)).Nodup :=
      hr.ids.sublist ((List.sublist_append_left _ _).map _)
    unfold List.NodupKeys List.keys
    rwa [List.map_map]

theorem current_of_step {correlated : Bool} {s t : Client} {fx : Effects} {e : ClientEvent}
    {limit : Nat} (hlimit : s.policy.limits.servicesPerSession = limit)
    (hr : s.services.Represented limit)
    (hsound : s.phase.isOpen = true → s.Sound correlated)
    (hcurrent : s.phase = .ready → s.services.Current s.generation)
    (h : s.step e = some (t, fx)) (ht : t.phase = .ready) :
    t.services.Current t.generation := by
  have hopen : t.phase.isOpen = true := by rw [ht]; rfl
  rcases hphase : s.phase with ⟨todo, sent⟩ | - | timedOut | result
  · exact current_of_activated hr (Sound.step hsound h hopen) (services_of_ready hphase h ht)
  · obtain ⟨hservices, -⟩ := performs_of_step h
    rw [(fixed_step h).2.1, ← hservices]
    refine Books.current_run (b := ⟨s.services, [], []⟩) hr (hcurrent hphase) fun op hmem => ?_
    obtain ⟨hwithin, hsession⟩ := s.within_operations e op hmem
    exact ⟨hlimit ▸ hwithin, hsession hphase⟩
  all_goals
    have hs := isOpen_of_step h hopen
    rw [hphase] at hs
    cases hs

end Client

namespace Drive

variable {s t : Drive}

/-- What holds between the steps of a run. -/
structure Orderly (s : Drive) : Prop where
  represented : s.services.Represented s.policy.limits.servicesPerSession
  policy : ∀ c, s.stage = .session c → c.policy = s.policy
  sound : ∀ c, s.stage = .session c → ∃ correlated, c.phase.isOpen = true → c.Sound correlated
  current : ∀ c, s.stage = .session c → c.phase = .ready → c.services.Current c.generation

theorem services_of_session {c : Client} (h : s.stage = .session c) : s.services = c.services := by
  unfold services
  rw [h]

/-- The operations of a step are those of the policy and of the Session. -/
theorem Orderly.within (ho : Orderly s) (e : DriveEvent) :
    ∀ op ∈ s.operations e, op.Within s.policy.limits.servicesPerSession ∧
      ∀ c, s.stage = .session c → c.phase = .ready → op.InSession c.generation := by
  have hclient {c : Client} (hstage : s.stage = .session c) (ce : ClientEvent) :
      ∀ op ∈ c.operations ce, op.Within s.policy.limits.servicesPerSession ∧
        ∀ c', s.stage = .session c' → c'.phase = .ready → op.InSession c'.generation := by
    intro op hmem
    obtain ⟨hwithin, hsession⟩ := c.within_operations ce op hmem
    rw [ho.policy c hstage] at hwithin
    refine ⟨hwithin, fun c' hc' hready => ?_⟩
    rw [hstage] at hc'
    cases hc'
    exact hsession hready
  unfold operations
  split
  · rename_i hstage
    simp [Operation.Within, hstage]
  · exact hclient (by assumption) _
  · rename_i hstage
    simp [Operation.Within, hstage]
  · exact hclient (by assumption) _
  · rename_i hstage
    split_ifs <;> simp [Operation.Within, hstage]
  · exact hclient (by assumption) _
  · simp

theorem policy_of_step {e : DriveEvent} (h : s.step e = some t) : t.policy = s.policy := by
  have hfinish (result : Except TunnelError Unit) (services : ServiceState) (counters : Counters)
      (closed : List CallerId) : (s.finish result services counters closed).policy = s.policy := by
    unfold finish
    split <;> rfl
  cases moves_of_step h with
  | failed | ended => exact hfinish _ _ _ _
  | _ => rfl

theorem not_session_finish (result : Except TunnelError Unit) (services : ServiceState)
    (counters : Counters) (closed : List CallerId) (c : Client) :
    (s.finish result services counters closed).stage ≠ .session c := by
  unfold finish
  split <;> simp

theorem policy_start (policy : RuntimePolicy) (sessionId : SessionId) (correlated : Bool)
    (services : ServiceState) (counters : Counters) (closed : List CallerId) :
    (Client.start policy sessionId correlated services counters closed).1.policy = policy := by
  unfold Client.start
  dsimp only
  split
  · rfl
  · exact (Client.fixed_continueRegistering _ _).1

/-- A Session that starts ready has nothing to activate. -/
theorem current_start (policy : RuntimePolicy) (sessionId : SessionId) (correlated : Bool)
    (services : ServiceState) (counters : Counters) (closed : List CallerId)
    (hready : (Client.start policy sessionId correlated services counters closed).1.phase
      = .ready) :
    (Client.start policy sessionId correlated services counters closed).1.services.Current
      (Client.start policy sessionId correlated services counters closed).1.generation := by
  have hsound := Client.Sound.start policy sessionId correlated services counters closed
    (by rw [hready]; rfl)
  rcases Client.start_cases policy sessionId correlated services counters closed with
    ⟨-, hclosed, -⟩ | ⟨pre, hpre, -, -, hdesired, -⟩
  · rw [hready] at hclosed
    cases hclosed
  · have hnil : services.desired = [] := by
      rcases hd : services.desired with - | ⟨first, rest⟩
      · rfl
      · rw [hpre, hd] at hready
        cases hready
    refine ⟨fun txn hmem => (hsound.consistent.stamped txn hmem).1,
      fun _ _ hg => hsound.consistent.tombstoned hg, fun service hmem => ?_⟩
    rw [hpre, hnil] at hmem
    rw [show (pre.continueRegistering []).services.desired = services.desired from hdesired,
      hnil] at hmem
    cases hmem

/-- **A step keeps the run orderly.** -/
theorem Orderly.step (ho : Orderly s) {e : DriveEvent} (h : s.step e = some t) : Orderly t := by
  have hpolicy := policy_of_step h
  have hrepresented : t.services.Represented t.policy.limits.servicesPerSession := by
    rw [hpolicy, show t.services = (s.books.run (s.operations e)).services from
      congrArg Books.services (step_books h)]
    exact Books.represented_run ho.represented fun op hmem => (ho.within e op hmem).1
  -- a step of the client
  have hclient {c : Client} {ce : ClientEvent} {r : Client × Effects}
      (hstage : s.stage = .session c) (hstep : c.step ce = some r)
      (ht : t.stage = .session r.1) : Orderly t := by
    obtain ⟨correlated, hsound⟩ := ho.sound c hstage
    have hrc : c.services.Represented s.policy.limits.servicesPerSession :=
      services_of_session hstage ▸ ho.represented
    refine ⟨hrepresented, fun c' hc' => ?_, fun c' hc' => ?_, fun c' hc' hready => ?_⟩
    all_goals
      rw [ht] at hc'
      cases hc'
    · rw [(Client.fixed_step hstep).1, ho.policy c hstage, hpolicy]
    · exact ⟨correlated, fun hopen => Client.Sound.step hsound hstep hopen⟩
    · exact Client.current_of_step (by rw [ho.policy c hstage]) hrc hsound (ho.current c hstage)
        hstep hready
  -- a step that ends outside a Session
  have hout (ht : ∀ c, t.stage ≠ .session c) : Orderly t :=
    ⟨hrepresented, fun c hc => absurd hc (ht c), fun c hc => absurd hc (ht c),
      fun c hc => absurd hc (ht c)⟩
  cases moves_of_step h with
  | declined hstage =>
      refine hout fun c hc => ?_
      rw [show s.stage = .session c from hc] at hstage
      cases hstage
  | forgotten | gone | stopped => exact hout fun c hc => by cases hc
  | failed | ended => exact hout (not_session_finish _ _ _ _)
  | started hstage =>
      refine ⟨hrepresented, fun c hc => ?_, fun c hc => ?_, fun c hc hready => ?_⟩
      all_goals cases hc
      · exact policy_start _ _ _ _ _ _
      · exact ⟨_, fun hopen => Client.Sound.start _ _ _ _ _ _ hopen⟩
      · exact current_start _ _ _ _ _ _ hready
  | registered hstage hstep | unregistered hstage hstep | went hstage hcmd hstep =>
      exact hclient hstage hstep rfl

/-! ### Configured Services -/

theorem unique_of_uniqueServices {ids : List ServiceId} {names : List ServiceName}
    {services : List ClientService} (h : uniqueServices ids names services = true) :
    (services.map (·.id)).Nodup ∧ (services.map (·.name)).Nodup ∧
      (∀ service ∈ services, service.id ∉ ids ∧ service.name ∉ names) := by
  induction services generalizing ids names with
  | nil => simp
  | cons service rest ih =>
      simp only [uniqueServices, Bool.and_eq_true, Bool.not_eq_true', List.contains_eq_mem,
        decide_eq_false_iff_not] at h
      obtain ⟨⟨hid, hname⟩, hrest⟩ := h
      obtain ⟨hids, hnames, hfresh⟩ := ih hrest
      refine ⟨List.nodup_cons.mpr ⟨?_, hids⟩, List.nodup_cons.mpr ⟨?_, hnames⟩, ?_⟩
      · intro hmem
        obtain ⟨other, hother, heq⟩ := List.mem_map.mp hmem
        exact (hfresh other hother).1 (heq ▸ List.mem_cons_self)
      · intro hmem
        obtain ⟨other, hother, heq⟩ := List.mem_map.mp hmem
        exact (hfresh other hother).2 (heq ▸ List.mem_cons_self)
      · intro other hother
        rcases List.mem_cons.mp hother with rfl | hother
        · exact ⟨hid, hname⟩
        · exact ⟨fun hmem => (hfresh other hother).1 (List.mem_cons_of_mem _ hmem),
            fun hmem => (hfresh other hother).2 (List.mem_cons_of_mem _ hmem)⟩

theorem orderly_init {c : DriveConfig} (hvalid : validateServices c.policy c.services = .ok ()) :
    Orderly (init c) := by
  unfold validateServices at hvalid
  split_ifs at hvalid with hroom hunique
  obtain ⟨hids, hnames, -⟩ := unique_of_uniqueServices hunique
  have hclaimed : (ServiceState.new c.services).claimed = c.services := List.append_nil _
  refine ⟨?_, fun _ hc => (nomatch hc), fun _ hc => (nomatch hc), fun _ hc => (nomatch hc)⟩
  show (ServiceState.new c.services).Represented c.policy.limits.servicesPerSession
  exact
    { ids := by rwa [hclaimed]
      names := by rwa [hclaimed]
      keyed := fun _ _ hk => by cases hk
      serial := fun _ => rfl
      bounded := fun _ hn => by cases hn
      tombstones := Nat.zero_le _
      dead := fun _ hd => by cases hd
      active := fun _ _ ha => by cases ha
      capacity := Nat.not_lt.mp hroom }

/-- **The representation invariant of the `ServiceState` over whole runs.**
From configured Services that pass `validate_config`, it holds in every state
of a run of `drive`, and behind every single operation of every step; within a
ready Session every transaction and every tombstone is of that Session, and
the desired Services are the active ones. -/
theorem service_state_invariant (c : DriveConfig)
    (hvalid : validateServices c.policy c.services = .ok ()) (es : List DriveEvent)
    (hrun : exec step (init c) es = some s) :
    s.services.Represented c.policy.limits.servicesPerSession ∧
      (∀ id, (s.services.abandoned.lookup id).isSome → s.services.active.lookup id = none) ∧
      (∀ client, s.stage = .session client → client.phase = .ready →
        s.services.Current client.generation) ∧
      ∀ e t, s.step e = some t →
        (s.books.run (s.operations e)).services = t.services ∧
        ∀ n, (s.books.run ((s.operations e).take n)).services.Represented
            c.policy.limits.servicesPerSession ∧
          ∀ client, s.stage = .session client → client.phase = .ready →
            (s.books.run ((s.operations e).take n)).services.Current client.generation := by
  have ho : Orderly s :=
    exec_inv_of_step (fun _ _ _ hs h => hs.step h) (orderly_init hvalid) hrun
  have hpolicy : s.policy = c.policy := by
    refine exec_inv_of_step (fun (s : Drive) _ _ (hs : s.policy = c.policy) h => ?_) rfl hrun
    exact (policy_of_step h).trans hs
  rw [← hpolicy]
  have hcurrent : ∀ client, s.stage = .session client → client.phase = .ready →
      s.services.Current client.generation := by
    intro client hstage hready
    rw [services_of_session hstage]
    exact ho.current client hstage hready
  refine ⟨ho.represented, fun _ => ho.represented.not_active, hcurrent, fun e t h => ?_⟩
  refine ⟨(congrArg Books.services (step_books h)).symm, fun n => ⟨?_, ?_⟩⟩
  · exact Books.represented_run ho.represented fun op hmem =>
      (ho.within e op (List.mem_of_mem_take hmem)).1
  · intro client hstage hready
    refine Books.current_run ho.represented (hcurrent client hstage hready) fun op hmem => ?_
    obtain ⟨hwithin, hsession⟩ := ho.within e op (List.mem_of_mem_take hmem)
    exact ⟨hwithin, hsession client hstage hready⟩

/-- One configured Service. -/
def smallDrive : DriveConfig := ⟨.default, [webService]⟩

/-- A Session with a serial peer, in which a registration is begun and given up
and which is then lost; the configured Service is unregistered in between; a
Session with a correlated peer, in which another one is registered. -/
def twoSessions : List DriveEvent :=
  [.authenticated ⟨Vector.replicate 16 7⟩ false, .client (.registerNext .done),
    .client (.incoming (.registerAck ⟨⟨1⟩, ⟨Vector.replicate 16 0, 1000⟩⟩) .done),
    .register mailService .done 0, .unregister ⟨2⟩ .done 0,
    .client (.readFailed (.io .unexpectedEof)), .sessionOver, .unregister ⟨1⟩ .done 0,
    .authenticated ⟨Vector.replicate 16 8⟩ true, .register mailService .done 0,
    .client (.incoming (.registerAck ⟨⟨2⟩, ⟨Vector.replicate 16 0, 1001⟩⟩) .done)]

/-- The supervisor after that run. -/
def afterTwoSessions : Drive :=
  (exec step (init smallDrive) twoSessions).get (by decide +kernel)

theorem service_state_invariant_two_sessions :
    validateServices smallDrive.policy smallDrive.services = .ok () ∧
      exec step (init smallDrive) twoSessions = some afterTwoSessions ∧
      afterTwoSessions.services.Represented 64 :=
  have hvalid : validateServices smallDrive.policy smallDrive.services = .ok () := by decide
  have hrun : exec step (init smallDrive) twoSessions = some afterTwoSessions :=
    Option.eq_some_of_isSome _
  ⟨hvalid, hrun, (service_state_invariant smallDrive hvalid twoSessions hrun).1⟩

end Drive

end Eggtunnel
