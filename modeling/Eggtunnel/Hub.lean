/-
Eggtunnel/Hub.lean

All Sessions of one server: the registry, the pending connections, the
`run_service` and relay tasks, and the data connections.

Every `SessionContext` has a map of pending connections behind a lock, and
many tasks of their own pace work on it.  A step of the model is one critical
section with what its task does up to its next `await`; which task moves next
is the scheduler's choice, so a schedule of events is an interleaving.

The control loop touches a pending map at most once in a branch, and what it
does before taking that lock concerns nobody else, so one branch is one step.
Likewise the teardown of a Session is one step: while it waits for its tasks
it does nothing, and after the last lock it returns without another `await`.

The shared counters are lent to the Session that moves.  A number stands for
each allocated context, spawned `run_service`, accepted external connection
and data connection; `generated`, `sessionIds`, `issued`, `deliveries` and
`results` record what has happened.
-/
import Eggtunnel.Run
import Eggtunnel.Server

namespace Eggtunnel

/-- `Principal`: the fingerprint of the peer's certificate, if it showed one. -/
abbrev Principal := Option (Vector UInt8 32)

/-! ### Pending connections -/

/-- An allocated `SessionContext`. -/
abbrev ContextId := Nat
/-- A spawned `run_service` task. -/
abbrev RegistrationId := Nat
/-- An accepted external connection. -/
abbrev ExternalId := Nat
/-- A data connection. -/
abbrev StreamId := Nat

/-- `PendingEntry`; the sending half of the `oneshot` is named by the external
connection whose task holds the receiving half. -/
structure PendingEntry where
  serviceId : ServiceId
  expires : Instant
  dataTx : ExternalId
  deriving DecidableEq

/-- The map of pending connections of one context. -/
abbrev PendingMap := Table ConnectionId PendingEntry

/-- `pending.remove(&id)`, with the decrement if there was an entry. -/
def claimPending (pending : PendingMap) (gauge : Nat) (c : ConnectionId) :
    PendingMap × Nat × Option PendingEntry :=
  match pending.lookup c with
  | some entry => (pending.erase c, fetchSub gauge 1, some entry)
  | none => (pending, gauge, none)

/-- `remove_service_pending`. -/
def removeServicePending (pending : PendingMap) (gauge : Nat) (service : ServiceId) :
    PendingMap × Nat :=
  let kept := pending.retain fun _ entry => entry.serviceId ≠ service
  (kept, fetchSub gauge (pending.size - kept.size))

/-- `remove_all_pending`. -/
def removeAllPending (pending : PendingMap) (gauge : Nat) : PendingMap × Nat :=
  (∅, fetchSub gauge pending.size)

/-! ### Tasks -/

/-- Where a `run_service` task is. -/
inductive TaskState
  /-- in its select loop -/
  | accepting
  /-- a permit is taken and an id generated; waiting for the lock -/
  | admitted (c : ConnectionId)
  /-- the entry is in the map, the `Open` not yet queued -/
  | advertising (c : ConnectionId) (x : ExternalId)
  /-- the queue was full; waiting for the lock again -/
  | rollingBack (c : ConnectionId) (x : ExternalId)
  /-- out of its loop, waiting for its relays -/
  | leaving
  deriving DecidableEq

/-- The task holds a permit of `connection_admission`. -/
def TaskState.holdsPermit : TaskState → Bool
  | .accepting | .leaving => false
  | _ => true

/-- A `run_service` task, and the Session and Service it is for. -/
structure ServiceTask where
  context : ContextId
  serviceId : ServiceId
  state : TaskState
  deriving DecidableEq

/-- Where a relay task is. -/
inductive RelayState
  /-- in its select, waiting for the data stream -/
  | waiting
  /-- out of its select; waiting for the lock -/
  | decided (outcome : Option StreamId)
  | relaying (data : StreamId)
  deriving DecidableEq

/-- A relay task, and the task that spawned it. -/
structure RelayTask where
  context : ContextId
  task : RegistrationId
  connection : ConnectionId
  state : RelayState
  deriving DecidableEq

/-- A `DataHello` past the principal check, holding its Session alive. -/
structure HelloTask where
  context : ContextId
  hello : DataHello
  principal : Principal
  deriving DecidableEq

/-! ### The server -/

/-- One `SessionContext` with its control loop.  `tokens` is the other half of
`services`: the task each entry's token cancels. -/
structure ServerSession where
  principal : Principal
  server : Server
  greeted : Bool
  pending : PendingMap
  tokens : Table ServiceId RegistrationId
  written : List Write
  served : List (RegisterService × Verdict)

/-- The fields of `Counters` that only the server's connections use. -/
structure Gauges where
  pending : Nat
  highWaterPending : Nat
  activeConnections : Nat
  highWaterActiveConnections : Nat
  highWaterSessions : Nat
  rejected : Nat
  deriving DecidableEq

/-- A `ConnectionId` that went into a pending map. -/
structure Issue where
  connection : ConnectionId
  context : ContextId
  registration : RegistrationId
  external : ExternalId
  deriving DecidableEq

/-- A data stream that was sent to the task of an external connection. -/
structure Delivery where
  task : HelloTask
  external : ExternalId
  stream : StreamId
  deriving DecidableEq

/-- The server: `Shared`, what its tasks own, and the record of what has happened. -/
structure Hub where
  policy : RuntimePolicy
  bindPolicy : BindPolicy
  counters : Counters
  gauges : Gauges
  sessions : Table ContextId ServerSession
  registry : Table SessionId ContextId
  cancelled : List RegistrationId
  tasks : Table RegistrationId ServiceTask
  relays : Table ExternalId RelayTask
  inbox : Table ExternalId StreamId
  hellos : Table StreamId HelloTask
  next : Nat
  generated : List ConnectionId
  sessionIds : List SessionId
  issued : List Issue
  deliveries : List Delivery
  results : List (StreamId × Except TunnelError Unit)

/-- What can happen on the server. -/
inductive HubEvent
  /-- an authenticated client is given a Session -/
  | connect (id : SessionId) (principal : Principal) (negotiated : Capabilities)
  /-- `AuthOk` is written -/
  | greet (k : ContextId) (o : WriteOutcome)
  /-- a branch of the control loop -/
  | control (k : ContextId) (e : ServerEvent)
  /-- the last reference to a context goes -/
  | contextDropped (k : ContextId)
  /-- `listener.accept()`; no id if the random source fails -/
  | accept (r : RegistrationId) (c : Option ConnectionId)
  | insert (r : RegistrationId) (now : Instant)
  | advertise (r : RegistrationId)
  | rollBack (r : RegistrationId)
  /-- a cancelled task leaves its loop -/
  | leave (r : RegistrationId)
  | exit (r : RegistrationId)
  /-- a task is aborted at one of its awaits -/
  | taskDropped (r : RegistrationId)
  /-- the relay's select: the stream has arrived -/
  | received (x : ExternalId)
  /-- the relay's select: cancelled, timed out, or the sender is gone -/
  | gaveUp (x : ExternalId)
  /-- the relay takes its own entry out -/
  | release (x : ExternalId)
  /-- a relay ends, or is aborted at one of its awaits -/
  | relayDropped (x : ExternalId)
  /-- `accept_data_hello` up to the lock -/
  | dataHello (hello : DataHello) (principal : Principal)
  /-- `accept_data_hello` from the lock on -/
  | resolve (d : StreamId) (now : Instant)
  | helloDropped (d : StreamId)

/-- What `validate_server_profile` lets through. -/
structure HubConfig where
  policy : RuntimePolicy
  bindPolicy : BindPolicy
  policyValid : policy.validate = .ok ()
  bindPolicyValid : bindPolicy.validate = .ok ()

/-- The branches of the control loop; the rest of the server's events stand for
what other tasks do. -/
def ServerEvent.isBranch : ServerEvent → Bool
  | .opened _ _ | .childEnded _ | .elsewhere _ => false
  | _ => true

namespace Hub

/-- The server as it is bound. -/
def init (c : HubConfig) : Hub where
  policy := c.policy
  bindPolicy := c.bindPolicy
  counters := .new
  gauges := ⟨0, 0, 0, 0, 0, 0⟩
  sessions := ∅
  registry := ∅
  cancelled := []
  tasks := ∅
  relays := ∅
  inbox := ∅
  hellos := ∅
  next := 0
  generated := []
  sessionIds := []
  issued := []
  deliveries := []
  results := []

/-! ### Shared parts -/

/-- Somebody holds a strong reference to the context: its control loop, a task
of its own, or a data connection that has found it. -/
def held (s : Hub) (k : ContextId) : Bool :=
  (s.sessions.lookup k).any (·.server.phase = .running)
    || s.tasks.values.any (·.context = k)
    || s.relays.values.any (·.context = k)
    || s.hellos.values.any (·.context = k)

/-- The pending entries of all contexts. -/
def pendingTotal (s : Hub) : Nat := s.sessions.total (·.pending.size)

/-- `rejected_connections` goes up. -/
def reject (s : Hub) : Hub :=
  { s with gauges := { s.gauges with rejected := fetchAdd s.gauges.rejected 1 } }

/-- `record_saturation`, also where `run_service` writes it out. -/
def recordSaturation (s : Hub) : Hub :=
  { s.reject with counters := s.counters.recordTermination .resourceExhausted }

/-- The pending map of a Session and the shared gauge are put back. -/
def setPending (s : Hub) (k : ContextId) (session : ServerSession) (r : PendingMap × Nat) : Hub :=
  { s with
    sessions := s.sessions.insert k { session with pending := r.1 }
    gauges := { s.gauges with pending := r.2 } }

/-- A `run_service` task moves on. -/
def setTask (s : Hub) (r : RegistrationId) (task : ServiceTask) (state : TaskState) : Hub :=
  { s with tasks := s.tasks.insert r { task with state } }

/-- The `SessionGuard` of `k` drops: the Session token cancels every task, and
the registry entry goes. -/
def dropGuard (s : Hub) (k : ContextId) (id : SessionId) : Hub :=
  { s with
    registry := s.registry.erase id
    cancelled := s.tasks.keys.filter (fun r => (s.tasks.lookup r).any (·.context = k)) ++ s.cancelled }

/-! ### Sessions -/

/-- A control loop before its first frame. -/
def newServer (s : Hub) (id : SessionId) (negotiated : Capabilities) : Server where
  sessionId := id
  policy := s.policy
  bindPolicy := s.bindPolicy
  negotiated
  services := ∅
  names := []
  children := []
  queue := []
  counters := s.counters
  phase := .running

/-- `SessionContext::register` and `SessionGuard::new`. -/
def connect (s : Hub) (id : SessionId) (principal : Principal) (negotiated : Capabilities) : Hub :=
  let registry := s.registry.retain fun _ k => s.held k
  let s := { s with registry, sessionIds := id :: s.sessionIds }
  if s.policy.limits.sessions ≤ registry.size then s.recordSaturation
  else
    let sessions := fetchAdd s.counters.sessions 1
    { s with
      registry := registry.insert id s.next
      sessions := s.sessions.insert s.next
        ⟨principal, s.newServer id negotiated, false, ∅, ∅, [], []⟩
      counters := { s.counters with sessions }
      gauges := { s.gauges with highWaterSessions := max s.gauges.highWaterSessions sessions }
      next := s.next + 1 }

/-- The server of a Session, with the shared counters. -/
def lent (s : Hub) (session : ServerSession) : Server :=
  { session.server with counters := s.counters }

/-- What a branch does to the tasks and to the pending map. -/
def branch (s : Hub) (k : ContextId) (session : ServerSession) : ServerEvent → Hub × ServerSession
  | .incoming (.registerService register) os _ =>
      match (s.lent session).registerService register os with
      | (_, .accepted bind) =>
          ({ s with
            tasks := s.tasks.insert s.next ⟨k, register.serviceId, .accepting⟩
            next := s.next + 1 },
            { session with
              tokens := session.tokens.insert register.serviceId s.next
              served := session.served ++ [(register, .accepted bind)] })
      | (_, .refused code) =>
          (s, { session with served := session.served ++ [(register, .refused code)] })
  | .incoming (.unregisterService unregister) _ _ =>
      match session.tokens.lookup unregister.serviceId with
      | some r =>
          let (pending, gauge) :=
            removeServicePending session.pending s.gauges.pending unregister.serviceId
          ({ s with cancelled := r :: s.cancelled, gauges := { s.gauges with pending := gauge } },
            { session with tokens := session.tokens.erase unregister.serviceId, pending })
      | none => (s, session)
  | .incoming (.openReject reject) _ _ =>
      let (pending, gauge, _) :=
        claimPending session.pending s.gauges.pending reject.connectionId
      ({ s with gauges := { s.gauges with pending := gauge } }, { session with pending })
  | _ => (s, session)

/-- The loop was left by `break`, and not by an error return. -/
def breaks (e : ServerEvent) (server : Server) : Bool :=
  match e with
  | .idle => true
  | _ => server.phase = .returned (.ok ())

/-- The end of a branch; a Session that has ended drops its guard, after
`remove_all_pending` if the loop was left by `break`. -/
def conclude (s : Hub) (k : ContextId) (session : ServerSession) (breaks : Bool) : Hub :=
  match session.server.phase with
  | .running => { s with sessions := s.sessions.insert k session }
  | .returned _ =>
      ((if breaks then s.setPending k session (removeAllPending session.pending s.gauges.pending)
        else { s with sessions := s.sessions.insert k session })).dropGuard k session.server.sessionId

/-- A branch of a control loop: its own step, what it does to the tasks and the
pending map, and its end. -/
def control (s : Hub) (k : ContextId) (session : ServerSession) (e : ServerEvent) : Option Hub :=
  ((s.lent session).step e).map fun (server, writes) =>
    let (s, session) := s.branch k session e
    ({ s with counters := server.counters }).conclude k
      { session with server, written := session.written ++ writes } (breaks e server)

/-- `write_bounded` of `AuthOk`. -/
def greet (s : Hub) (k : ContextId) (session : ServerSession) (o : WriteOutcome) : Hub :=
  let m := Message.authOk ⟨session.server.sessionId⟩
  let session := { session with written := session.written ++ [(m, o)] }
  match writeBounded m o with
  | .ok () => { s with sessions := s.sessions.insert k { session with greeted := true } }
  | .error e =>
      let server := (s.lent session).finish (.error e)
      ({ s with counters := server.counters }).conclude k { session with server } false

/-- `SessionContext::drop`. -/
def contextDropped (s : Hub) (k : ContextId) (session : ServerSession) : Hub :=
  { s with
    sessions := s.sessions.erase k
    gauges := { s.gauges with pending := fetchSub s.gauges.pending session.pending.size } }

/-! ### `run_service` -/

/-- The permits of `connection_admission` that are taken: by the relays, and by
the tasks on their way to one. -/
def permitsTaken (s : Hub) (k : ContextId) : Nat :=
  (s.tasks.values.filter fun task => task.context = k && task.state.holdsPermit).length
  + (s.relays.values.filter (·.context = k)).length

/-- An external connection, up to the lock. -/
def accept (s : Hub) (r : RegistrationId) (task : ServiceTask) (c : Option ConnectionId) : Hub :=
  if s.permitsTaken task.context < s.policy.limits.activeConnectionsPerSession then
    match c with
    | some c => { s with generated := c :: s.generated }.setTask r task (.admitted c)
    | none => s.reject
  else s.recordSaturation

/-- The critical section that enters the id.  All entries are in one address
space, so there is no insertion beyond the word size. -/
def insert (s : Hub) (r : RegistrationId) (task : ServiceTask) (c : ConnectionId)
    (session : ServerSession) (now : Instant) : Option Hub :=
  if s.policy.limits.pendingPerSession ≤ session.pending.size then
    some (s.recordSaturation.setTask r task .accepting)
  else if s.pendingTotal + 1 < usizeValues then
    let gauge := fetchAdd s.gauges.pending 1
    let entry : PendingEntry :=
      ⟨task.serviceId, now + s.policy.timeouts.pendingConnection, s.next⟩
    some ({ s with
      gauges := { s.gauges with highWaterPending := max s.gauges.highWaterPending gauge }
      next := s.next + 1
      issued := ⟨c, task.context, r, s.next⟩ :: s.issued }.setPending task.context session
        (session.pending.insert c entry, gauge) |>.setTask r task (.advertising c s.next))
  else none

/-- `opens.try_send`: the relay is spawned, or the entry has to go again. -/
def advertise (s : Hub) (r : RegistrationId) (task : ServiceTask) (c : ConnectionId)
    (x : ExternalId) (session : ServerSession) : Hub :=
  if session.server.phase = .running ∧
      session.server.queue.length < s.policy.limits.controlQueue then
    let server := session.server.trySend (.open ⟨task.serviceId, c⟩)
    let active := fetchAdd s.gauges.activeConnections 1
    { s with
      sessions := s.sessions.insert task.context { session with server }
      relays := s.relays.insert x ⟨task.context, r, c, .waiting⟩
      gauges := { s.gauges with
        activeConnections := active
        highWaterActiveConnections := max s.gauges.highWaterActiveConnections active } }.setTask
          r task .accepting
  else s.setTask r task (.rollingBack c x)

/-- The critical section after a full queue. -/
def rollBack (s : Hub) (r : RegistrationId) (task : ServiceTask) (c : ConnectionId)
    (x : ExternalId) (session : ServerSession) : Hub :=
  let (pending, gauge, _) := claimPending session.pending s.gauges.pending c
  { s with inbox := s.inbox.erase x }.reject.setPending task.context session (pending, gauge)
    |>.setTask r task .accepting

/-- A `run_service` task is gone from its `JoinSet`. -/
def reap (s : Hub) (r : RegistrationId) (task : ServiceTask) (session : ServerSession) : Hub :=
  let server := { session.server with children := session.server.children.erase task.serviceId }
  { s with
    tasks := s.tasks.erase r
    sessions := s.sessions.insert task.context { session with server } }

/-- The exit path, once the relays are reaped. -/
def exit (s : Hub) (r : RegistrationId) (task : ServiceTask) (session : ServerSession) : Hub :=
  let (pending, gauge) := removeServicePending session.pending s.gauges.pending task.serviceId
  { s with gauges := { s.gauges with pending := gauge } }.reap r task { session with pending }

/-! ### Relays -/

/-- A relay moves on; what was in its `oneshot` has been taken. -/
def setRelay (s : Hub) (x : ExternalId) (relay : RelayTask) (state : RelayState) : Hub :=
  { s with relays := s.relays.insert x { relay with state }, inbox := s.inbox.erase x }

/-- The relay task ends, and with it its `ActiveConnectionGuard`. -/
def endRelay (s : Hub) (x : ExternalId) : Hub :=
  { s with
    relays := s.relays.erase x
    inbox := s.inbox.erase x
    gauges := { s.gauges with activeConnections := fetchSub s.gauges.activeConnections 1 } }

/-- The relay takes its own entry out of the map, and goes on if it has a
stream. -/
def release (s : Hub) (x : ExternalId) (relay : RelayTask) (outcome : Option StreamId)
    (session : ServerSession) : Hub :=
  let (pending, gauge, _) := claimPending session.pending s.gauges.pending relay.connection
  let s := s.setPending relay.context session (pending, gauge)
  match outcome with
  | some data => s.setRelay x relay (.relaying data)
  | none => s.endRelay x

/-! ### Data connections -/

/-- The receiving half of the `oneshot` is still there. -/
def receiving (s : Hub) (x : ExternalId) : Bool :=
  (s.relays.lookup x).any (·.state = .waiting)
    || s.tasks.values.any fun task =>
      match task.state with
      | .advertising _ y | .rollingBack _ y => x = y
      | _ => false

/-- The end of `accept_data_hello`. -/
def answerHello (s : Hub) (d : StreamId) (result : Except TunnelError Unit) : Hub :=
  { s with hellos := s.hellos.erase d, results := s.results ++ [(d, result)] }

/-- The registry lookup and the principal check. -/
def dataHello (s : Hub) (hello : DataHello) (principal : Principal) : Hub :=
  let d := s.next
  let s := { s with next := s.next + 1 }
  match (s.registry.lookup hello.sessionId).filter s.held with
  | none => s.reject.answerHello d (.error .authentication)
  | some k =>
      match s.sessions.lookup k with
      | none => s.reject.answerHello d (.error .authentication)
      | some session =>
          if session.principal ≠ principal then s.reject.answerHello d (.error .authentication)
          else { s with hellos := s.hellos.insert d ⟨k, hello, principal⟩ }

/-- The entry is taken out whatever comes of it. -/
def resolve (s : Hub) (d : StreamId) (task : HelloTask) (session : ServerSession)
    (now : Instant) : Hub :=
  let (pending, gauge, entry) :=
    claimPending session.pending s.gauges.pending task.hello.connectionId
  let s := s.setPending task.context session (pending, gauge)
  match entry with
  | none => s.reject.answerHello d (.error .authorization)
  | some entry =>
      if entry.serviceId ≠ task.hello.serviceId ∨ entry.expires ≤ now then
        s.reject.answerHello d (.error .authorization)
      else if s.receiving entry.dataTx then
        { s with
          inbox := s.inbox.insert entry.dataTx d
          deliveries := ⟨task, entry.dataTx, d⟩ :: s.deliveries }.answerHello d
            (.ok ())
      else s.answerHello d (.error .cancelled)

/-! ### The step function -/

/-- A move of a `run_service` task, given its own record and its Session. -/
def onTask (s : Hub) (r : RegistrationId)
    (act : ServiceTask → ServerSession → Option Hub) : Option Hub :=
  (s.tasks.lookup r).bind fun task => (s.sessions.lookup task.context).bind (act task)

/-- The same for a relay. -/
def onRelay (s : Hub) (x : ExternalId)
    (act : RelayTask → ServerSession → Option Hub) : Option Hub :=
  (s.relays.lookup x).bind fun relay => (s.sessions.lookup relay.context).bind (act relay)

/-- One move of one task, if it can be made. -/
def step (s : Hub) : HubEvent → Option Hub
  | .connect id principal negotiated => some (s.connect id principal negotiated)
  | .greet k o =>
      (s.sessions.lookup k).bind fun session =>
        if session.greeted = false ∧ session.server.phase = .running then
          some (s.greet k session o)
        else none
  | .control k e =>
      (s.sessions.lookup k).bind fun session =>
        if session.greeted = true ∧ e.isBranch = true then s.control k session e else none
  | .contextDropped k =>
      (s.sessions.lookup k).bind fun session =>
        if s.held k then none else some (s.contextDropped k session)
  | .accept r c => s.onTask r fun task _ =>
      if task.state = .accepting then some (s.accept r task c) else none
  | .insert r now => s.onTask r fun task session =>
      match task.state with
      | .admitted c => s.insert r task c session now
      | _ => none
  | .advertise r => s.onTask r fun task session =>
      match task.state with
      | .advertising c x => some (s.advertise r task c x session)
      | _ => none
  | .rollBack r => s.onTask r fun task session =>
      match task.state with
      | .rollingBack c x => some (s.rollBack r task c x session)
      | _ => none
  | .leave r => s.onTask r fun task _ =>
      if task.state = .accepting ∧ r ∈ s.cancelled then some (s.setTask r task .leaving) else none
  | .exit r => s.onTask r fun task session =>
      if task.state = .leaving ∧ s.relays.values.all (·.task ≠ r) then
        some (s.exit r task session)
      else none
  -- between the insertion and the `try_send` there is no await
  | .taskDropped r => s.onTask r fun task session =>
      match task.state with
      | .advertising _ _ => none
      | .rollingBack _ x => some ({ s with inbox := s.inbox.erase x }.reap r task session)
      | _ => some (s.reap r task session)
  | .received x => s.onRelay x fun relay _ =>
      match relay.state, s.inbox.lookup x with
      | .waiting, some data => some (s.setRelay x relay (.decided (some data)))
      | _, _ => none
  | .gaveUp x => s.onRelay x fun relay _ =>
      if relay.state = .waiting then some (s.setRelay x relay (.decided none)) else none
  | .release x => s.onRelay x fun relay session =>
      match relay.state with
      | .decided outcome => some (s.release x relay outcome session)
      | _ => none
  | .relayDropped x => s.onRelay x fun _ _ => some (s.endRelay x)
  | .dataHello hello principal => some (s.dataHello hello principal)
  | .resolve d now =>
      (s.hellos.lookup d).bind fun task =>
        (s.sessions.lookup task.context).map fun session => s.resolve d task session now
  | .helloDropped d =>
      (s.hellos.lookup d).map fun _ => { s with hellos := s.hellos.erase d }

end Hub

end Eggtunnel
