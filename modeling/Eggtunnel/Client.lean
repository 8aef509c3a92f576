/-
Eggtunnel/Client.lean

`run_session` from `AuthOk` on: the initial registration exchange, the select
loop with every branch, and the teardown.

One event is one completed branch.  A branch may await a write, and how that
write ends is part of the event; nothing else of the loop runs meanwhile.  The
phases follow the function's own stages:

* `registering`: the sequential exchange for the desired Services;
* `ready`: the select loop;
* `draining`: after `break`, while the Open tasks are given time to finish;
* `returned`: the value the supervisor sees.

The waiting time in `draining` depends on the peer's drain deadline; it bounds
how long the phase lasts and nothing else, so it is left out.
-/
import Eggtunnel.ServiceState
import Eggtunnel.Outbound

namespace Eggtunnel

/-! ### Parts of the Session -/

/-- `HeartbeatState`; the nonce wraps. -/
structure HeartbeatState where
  nonce : UInt64
  outstanding : Option (UInt64 × Instant)
  deriving DecidableEq

/-- No probe yet. -/
def HeartbeatState.new : HeartbeatState := ⟨0, none⟩

/-- One spawned `handle_open`: the frame and the Service it will dial. -/
structure OpenTask where
  frame : Open
  service : ClientService
  deriving DecidableEq

/-- What a handle asks of the Session, with the caller that waits for it. -/
inductive ClientCommand
  | register (service : ClientService) (reply : CallerId)
  | unregister (id : ServiceId) (reply : CallerId)
  deriving DecidableEq

/-- What `read_message`, or `handshake_read` around it, can fail with. -/
inductive ReadError
  | io (kind : IoErrorKind)
  | protocol (e : ProtocolError)
  | timeout
  deriving DecidableEq

/-- The error that `?` makes of it. -/
def ReadError.toTunnelError : ReadError → TunnelError
  | .io kind => ioError kind
  | .protocol e => .protocol e
  | .timeout => .timeout

/-- Where `run_session` is. -/
inductive Phase
  | registering (todo : List ClientService) (sent : Bool)
  | ready
  | draining (timedOut : Bool)
  | returned (result : Except TunnelError Unit)
  deriving DecidableEq

/-- What `run_session` owns or borrows once `AuthOk` has arrived.  `closed`
lists the callers that have dropped their receiver. -/
structure Client where
  policy : RuntimePolicy
  sessionId : SessionId
  generation : Nat
  correlated : Bool
  services : ServiceState
  counters : Counters
  phase : Phase
  outbox : List Message
  heartbeat : HeartbeatState
  opens : List OpenTask
  unjoined : Nat
  cancel : Bool
  closed : List CallerId

/-- What a step does besides changing the Session. -/
structure Effects where
  writes : List Write := []
  answers : List Answer := []
  unregistered : List CallerId := []

/-- What can happen to a Session. -/
inductive ClientEvent
  /-- the client's cancellation token fires -/
  | cancelRequested
  /-- a caller drops its receiver -/
  | callerGone (caller : CallerId)
  /-- the next initial `RegisterService` is written -/
  | registerNext (o : WriteOutcome)
  /-- `read_message` delivers; `o` ends the cleanup write, if there is one -/
  | incoming (m : Message) (o : WriteOutcome)
  | readFailed (e : ReadError)
  /-- the `cancel.cancelled()` branch -/
  | cancelled (o : WriteOutcome)
  | heartbeatTick (now : Instant)
  | registrationDeadline (now : Instant)
  | outbound (o : WriteOutcome)
  | command (c : ClientCommand) (o : WriteOutcome) (now : Instant)
  /-- the Open task of `c` ends, having failed or not -/
  | openFinished (c : ConnectionId) (failed : Bool)
  /-- `opens.join_next()` -/
  | openJoined
  /-- the teardown after `break` completes -/
  | tornDown

namespace Client

/-- `Sender::is_closed`. -/
def isClosed (s : Client) (caller : CallerId) : Bool := s.closed.contains caller

/-- `out_tx.try_send`: dropped when the queue is full. -/
def trySend (s : Client) (m : Message) : Client :=
  if s.outbox.length < s.policy.limits.controlQueue then { s with outbox := s.outbox ++ [m] }
  else s

/-- What every return from the select loop or the teardown does: the Open
tasks are aborted with their `JoinSet`, and the connected guard drops. -/
def dropSession (s : Client) : Client :=
  { s with
    opens := []
    unjoined := 0
    counters := { s.counters with
      sessions := 0
      openTasks := fetchSub s.counters.openTasks s.opens.length } }

/-- An error return out of the select loop. -/
def fail (s : Client) (e : TunnelError) : Client :=
  { s.dropSession with phase := .returned (.error e) }

/-! ### Initial registration -/

/-- All desired Services are acknowledged: the Session is ready. -/
def becomeReady (s : Client) : Client :=
  { s with
    services := s.services.activateInitial
    counters := { s.counters with
      connected := 1
      services := s.services.desired.length
      sessions := 1 }
    phase := .ready }

/-- Go on with the services still to register. -/
def continueRegistering (s : Client) : List ClientService → Client
  | [] => s.becomeReady
  | todo => { s with phase := .registering todo false }

/-- `AuthOk` has arrived: `begin_session`, `set_mode`, `clear_active`. -/
def start (policy : RuntimePolicy) (sessionId : SessionId) (correlated : Bool)
    (services : ServiceState) (counters : Counters) (closed : List CallerId) :
    Client × Effects :=
  let s : Client :=
    { policy, sessionId, correlated, services, counters, closed
      generation := counters.sessionGeneration
      phase := .returned (.error .resourceExhausted)
      outbox := []
      heartbeat := .new
      opens := []
      unjoined := 0
      cancel := false }
  match counters.beginSession with
  | .error e => ({ s with phase := .returned (.error e) }, {})
  | .ok (generation, counters) =>
      let mode := if correlated then .correlatedBounded policy.limits.clientCommandQueue
        else .legacySerial
      let (services, answers) := services.setMode mode
      let services := services.clearActive
      (({ s with generation, services, counters }).continueRegistering services.desired,
        { answers })

/-- `handshake_write` of the next `RegisterService`. -/
def registerNext (s : Client) (service : ClientService) (todo : List ClientService)
    (o : WriteOutcome) : Client × Effects :=
  let m := Message.registerService service.registration
  match handshakeWrite m o with
  | .ok () => ({ s with phase := .registering (service :: todo) true }, { writes := [(m, o)] })
  | .error e => ({ s with phase := .returned (.error e) }, { writes := [(m, o)] })

/-- The answer to the initial registration of `service`.  Anything but its own
acknowledgement ends the Session. -/
def initialResponse (s : Client) (service : ClientService) (todo : List ClientService) :
    Message → Client
  | .registerAck ack =>
      if ack.serviceId = service.id then
        let binds := s.counters.binds ++ [BindEntry.mk s.sessionId service.id ack.effectiveBind]
        { s with counters := { s.counters with binds } }.continueRegistering todo
      else { s with phase := .returned (.error .authorization) }
  | _ => { s with phase := .returned (.error .authorization) }

/-! ### The branches of the select loop -/

/-- The `cancelled` branch: a best-effort `Drain`, then `break`. -/
def onCancelled (s : Client) (o : WriteOutcome) : Client × Effects :=
  let deadlineMs := min (s.policy.timeouts.relayDrain / millis 1) (2 ^ 32 - 1)
  ({ s with phase := .draining false },
    { writes := [(.drain ⟨UInt32.ofNat deadlineMs⟩, o)] })

/-- The heartbeat branch: one probe at a time, with the next nonce.  A tick that
finds one outstanding, or the queue full, sends none; the misses that
`record_heartbeat_missed` counts then are left out. -/
def onHeartbeatTick (s : Client) (now : Instant) : Client :=
  if s.heartbeat.outstanding.isSome then s
  else
    let nonce := s.heartbeat.nonce + 1
    if s.outbox.length < s.policy.limits.controlQueue then
      { s with outbox := s.outbox ++ [.ping ⟨nonce⟩], heartbeat := ⟨nonce, some (nonce, now)⟩ }
    else { s with heartbeat := { s.heartbeat with nonce } }

/-- The deadline branch; the serial mode ends the Session. -/
def onDeadline (s : Client) (now : Instant) : Client × Effects :=
  match s.services.expireOverdue now with
  | (services, answers, .legacy) =>
      ({ s with services, phase := .draining true }, { answers })
  | (services, answers, _) => ({ s with services }, { answers })

/-- `Open`: a task for it, or an `OpenReject` if the Service is not active or the
tasks are too many. -/
def onOpen (s : Client) (frame : Open) : Client :=
  match s.services.active.lookup frame.serviceId with
  | none => s.trySend (.openReject ⟨frame.connectionId, 1⟩)
  | some service =>
      if s.opens.length < s.policy.limits.clientOpenTasks then
        let openTasks := fetchAdd s.counters.openTasks 1
        { s with
          opens := s.opens ++ [⟨frame, service⟩]
          counters := { s.counters with
            openTasks
            highWaterOpenTasks := max s.counters.highWaterOpenTasks openTasks } }
      else s.trySend (.openReject ⟨frame.connectionId, 2⟩)

/-- `Pong`: it answers the probe with its nonce, and is ignored otherwise.  What
`record_heartbeat_pong` measures is left out. -/
def onPong (s : Client) (pong : Pong) : Client :=
  match s.heartbeat.outstanding with
  | some (expected, _) =>
      if expected = pong.nonce then { s with heartbeat := { s.heartbeat with outstanding := none } }
      else s
  | none => s

/-- `RegisterAck`: commit, clean up, answer a stale caller, or give up the Session. -/
def onRegisterAck (s : Client) (ack : RegisterAck) (o : WriteOutcome) : Client × Effects :=
  match s.services.takeAck ack.serviceId s.generation s.isClosed with
  | (services, .unexpected) =>
      (({ s with services }).fail (.protocol .unexpectedMessage), {})
  | (services, .stale reply) =>
      ({ s with services }, { answers := answer (.error .disconnected) reply })
  -- best effort: how this write ends is ignored
  | (services, .abandoned) =>
      ({ s with services }, { writes := [(.unregisterService ⟨ack.serviceId⟩, o)] })
  | (services, .commit service reply) =>
      let services := services.commit service
      ({ s with
        services
        counters := { s.counters with
          binds := s.counters.binds ++ [BindEntry.mk s.sessionId service.id ack.effectiveBind]
          services := services.active.size
          highWaterServices := max s.counters.highWaterServices services.active.size } },
        { answers := answer (.ok ack.effectiveBind) reply })

/-- `registration_error_code`. -/
def registrationErrorCode (code : UInt16) : TunnelError :=
  if code = 1 then .serviceAlreadyExists
  else if code = 5 then .resourceExhausted
  else .authorization

/-- A generic `Error`: it carries no `ServiceId`. -/
def onError (s : Client) (error : ErrorMessage) : Client × Effects :=
  match s.services.reject with
  | (services, some reply) =>
      ({ s with services }, { answers := answer (.error (registrationErrorCode error.code)) reply })
  | (services, none) => (({ s with services }).fail .authorization, {})

/-- `RegisterReject`, which only a correlated peer may send. -/
def onRegisterReject (s : Client) (reject : RegisterReject) : Client × Effects :=
  if s.correlated then
    match s.services.takeReject reject.serviceId s.generation with
    | (services, .reject reply) =>
        ({ s with services },
          { answers := answer (.error (registrationErrorCode reject.code)) reply })
    | (services, .stale reply) =>
        ({ s with services }, { answers := answer (.error .disconnected) reply })
    | (services, .unknown) => (({ s with services }).fail (.protocol .unexpectedMessage), {})
  else (s.fail (.protocol .unexpectedMessage), {})

/-- The `read_message` branch with a message. -/
def onIncoming (s : Client) (m : Message) (o : WriteOutcome) : Client × Effects :=
  match m with
  | .open frame => (s.onOpen frame, {})
  | .ping ping => (s.trySend (.pong ⟨ping.nonce⟩), {})
  | .pong pong => (s.onPong pong, {})
  | .registerAck ack => s.onRegisterAck ack o
  | .error error => s.onError error
  | .registerReject reject => s.onRegisterReject reject
  | .drain _ => ({ s with phase := .draining false }, {})
  | _ => (s.fail (.protocol .unexpectedMessage), {})

/-- The outbound branch: a failed write ends the Session. -/
def onOutbound (s : Client) (m : Message) (rest : List Message) (o : WriteOutcome) :
    Client × Effects :=
  let s := { s with outbox := rest }
  match writeControl m o with
  | .ok () => (s, { writes := [(m, o)] })
  | .error e => (s.fail e, { writes := [(m, o)] })

/-- The write of a dynamic registration, `services` being the state after
`begin`. -/
def writeRegistration (s : Client) (services : ServiceState) (service : ClientService)
    (o : WriteOutcome) (now : Instant) : Client × Effects :=
  let m := Message.registerService service.registration
  match writeBudgeted m o with
  | .ok () =>
      ({ s with services := services.armDeadline service.id (now + s.policy.timeouts.handshake) },
        { writes := [(m, o)] })
  | .error .timeout =>
      match services.mode with
      | .legacySerial =>
          ({ s with
            services := { services with
              pending := services.pending.map fun txn => { txn with reply := none } }
            phase := .draining true },
            { writes := [(m, o)]
              answers := answer (.error .timeout) (services.pending.bind (·.reply)) })
      | .correlatedBounded _ =>
          -- the Session goes on, whatever the stream now ends with
          let (services, answers) := services.abandon service.id
          ({ s with services }, { writes := [(m, o)], answers })
  | .error e => (({ s with services }).fail e, { writes := [(m, o)] })

/-- A `Register` command: the ceiling, a caller that is gone, `begin`, the write. -/
def onRegister (s : Client) (service : ClientService) (reply : CallerId) (o : WriteOutcome)
    (now : Instant) : Client × Effects :=
  if s.policy.limits.servicesPerSession ≤
      s.services.desired.length + s.services.unacknowledged then
    (s, { answers := [(reply, .error .resourceExhausted)] })
  else if s.isClosed reply then (s, {})
  else
    match s.services.begin service s.generation reply with
    | (services, .error e) => ({ s with services }, { answers := [(reply, .error e)] })
    | (services, .ok ()) => s.writeRegistration services service o now

/-- An `Unregister` command; how its write ends matters only for an active Service. -/
def onUnregister (s : Client) (id : ServiceId) (reply : CallerId) (o : WriteOutcome) :
    Client × Effects :=
  let m := Message.unregisterService ⟨id⟩
  match s.services.unregister id with
  | (services, answers, true) =>
      let s := { s with
        services
        counters := { s.counters with
          services := services.active.size
          binds := s.counters.binds.filter (·.service ≠ id) } }
      match writeControl m o with
      | .ok () => (s, { writes := [(m, o)], answers, unregistered := [reply] })
      | .error e => (s.fail e, { writes := [(m, o)], answers })
  | (services, answers, false) =>
      -- best effort: how this write ends is ignored
      ({ s with services }, { writes := [(m, o)], answers, unregistered := [reply] })

/-- An Open task ends; a failed one queues an `OpenReject`, unless the Session
token is cancelled. -/
def onOpenFinished (s : Client) (task : OpenTask) (reject : Bool) : Client :=
  let s := { s with
    opens := s.opens.erase task
    unjoined := s.unjoined + 1
    counters := { s.counters with openTasks := fetchSub s.counters.openTasks 1 } }
  if reject then s.trySend (.openReject ⟨task.frame.connectionId, 1⟩) else s

/-- The end of the teardown. -/
def onTornDown (s : Client) (timedOut : Bool) : Client × Effects :=
  let error := if timedOut then .timeout else if s.cancel then .cancelled else .disconnected
  let (services, answers) := s.services.finishPending error
  ({ s.dropSession with
    services := services.clearActive
    counters := { s.dropSession.counters with connected := 0 }
    phase := .returned (if timedOut then .error .timeout else .ok ()) }, { answers })

/-! ### The step function -/

/-- One completed branch, if the Session is where it can be. -/
def step (s : Client) (e : ClientEvent) : Option (Client × Effects) :=
  match e, s.phase with
  | .cancelRequested, _ => some ({ s with cancel := true }, {})
  | .callerGone caller, _ => some ({ s with closed := caller :: s.closed }, {})
  -- initial registration
  | .registerNext o, .registering (service :: todo) false =>
      some (s.registerNext service todo o)
  | .incoming m _, .registering (service :: todo) true =>
      some (s.initialResponse service todo m, {})
  | .readFailed e, .registering _ true =>
      some ({ s with phase := .returned (.error e.toTunnelError) }, {})
  -- the select loop
  | .incoming m o, .ready => some (s.onIncoming m o)
  | .readFailed .timeout, .ready => none
  | .readFailed e, .ready => some (s.fail e.toTunnelError, {})
  | .cancelled o, .ready => if s.cancel then some (s.onCancelled o) else none
  | .heartbeatTick now, .ready => some (s.onHeartbeatTick now, {})
  | .registrationDeadline now, .ready =>
      if s.services.nextDeadline.any (· ≤ now) then some (s.onDeadline now) else none
  | .outbound o, .ready =>
      match s.outbox with
      | m :: rest => some (s.onOutbound m rest o)
      | [] => none
  | .command (.register service reply) o now, .ready => some (s.onRegister service reply o now)
  | .command (.unregister id reply) o _, .ready => some (s.onUnregister id reply o)
  | .openFinished c failed, .ready =>
      (s.opens.find? (·.frame.connectionId = c)).map fun task =>
        (s.onOpenFinished task failed, {})
  | .openJoined, .ready =>
      if 0 < s.unjoined then some ({ s with unjoined := s.unjoined - 1 }, {}) else none
  -- the teardown; only a timeout gets here without cancelling the Session token
  | .openFinished c failed, .draining timedOut =>
      (s.opens.find? (·.frame.connectionId = c)).map fun task =>
        (s.onOpenFinished task (failed && timedOut), {})
  | .tornDown, .draining timedOut => some (s.onTornDown timedOut)
  | _, _ => none

end Client

/-! ### Two peers and two Services

For runs that can be evaluated. -/

/-- A peer of the serial mode. -/
def legacyPeer : Capabilities := ⟨[], by decide, by decide⟩

/-- A peer that correlates its refusals. -/
def correlatedPeer : Capabilities := ⟨[1], by decide, by decide⟩

/-- The Service `web`, on a port of the server's choice. -/
def webService : ClientService := ⟨⟨1⟩, ⟨"web", by decide⟩, .loopback 0, ⟨"h", 80, by decide⟩⟩

/-- The Service `mail`. -/
def mailService : ClientService := ⟨⟨2⟩, ⟨"mail", by decide⟩, .loopback 0, ⟨"h", 25, by decide⟩⟩

end Eggtunnel
