/-
Eggtunnel/Server.lean

The authenticated control loop of one server Session: registration with its
admission checks, the select loop, and what every return path cleans up.

The pending connections of the Session are left to their own model; here a
`run_service` task is only what may queue an `Open` for its Service.
-/
import Eggtunnel.Client

namespace Eggtunnel

/-! ### Bind authorization -/

/-- `BindPolicy`. -/
structure BindPolicy where
  allowPublicAddresses : Bool
  allowedAddresses : List (Vector UInt8 16)
  allowedPortRanges : List (UInt16 × UInt16)
  allowEphemeralPorts : Bool
  maxServicesPerSession : Nat
  deriving DecidableEq

/-- `BindPolicy::default`. -/
def BindPolicy.default : BindPolicy := ⟨false, [], [], true, 64⟩

/-- `BindPolicy::validate`. -/
def BindPolicy.validate (p : BindPolicy) : Except TunnelError Unit :=
  if p.maxServicesPerSession == 0 || decide (65536 < p.maxServicesPerSession)
      || decide (1024 < p.allowedAddresses.length)
      || p.allowedPortRanges.any (fun range => range.1 == 0 || decide (range.2 < range.1)) then
    .error (.configuration "bind policy is invalid")
  else .ok ()

/-- `SocketAddr`. -/
inductive SocketAddr
  | v4 (ip : Vector UInt8 4) (port : UInt16)
  | v6 (ip : Vector UInt8 16) (port : UInt16)
  deriving DecidableEq

/-- `Ipv6Addr::LOCALHOST`. -/
def localhostOctets : Vector UInt8 16 := #v[0, 0, 0, 0, 0, 0, 0, 0, 0, 0, 0, 0, 0, 0, 0, 1]

/-- `Ipv6Addr::to_ipv4_mapped` succeeds on these. -/
def isIpv4Mapped (address : Vector UInt8 16) : Bool :=
  (address.toList.take 12) = [0, 0, 0, 0, 0, 0, 0, 0, 0, 0, 0xff, 0xff]

/-- `is_loopback_octets`: `::1`, or a mapped `127.0.0.0/8`. -/
def isLoopbackOctets (address : Vector UInt8 16) : Bool :=
  address = localhostOctets || (isIpv4Mapped address && address[12] = 127)

/-- `permits_address`. -/
def BindPolicy.permitsAddress (p : BindPolicy) (address : Vector UInt8 16) (isLoopback : Bool) :
    Bool :=
  (isLoopback || p.allowPublicAddresses) &&
    (p.allowedAddresses.isEmpty || p.allowedAddresses.contains address)

/-- `permits_port`. -/
def BindPolicy.permitsPort (p : BindPolicy) (port : UInt16) : Bool :=
  if port = 0 then p.allowEphemeralPorts
  else p.allowedPortRanges.isEmpty ||
    p.allowedPortRanges.any fun range => range.1 ≤ port && port ≤ range.2

/-- `bind_to_socket`. -/
def bindToSocket (request : RequestedBind) (p : BindPolicy) : Except TunnelError SocketAddr :=
  match request with
  | .loopback port =>
      if !p.permitsAddress localhostOctets true || !p.permitsPort port then
        .error .authorization
      else .ok (.v6 localhostOctets port)
  | .ip address port =>
      if !p.permitsAddress address (isLoopbackOctets address) || !p.permitsPort port then
        .error .authorization
      else .ok (.v6 address port)

/-- `socket_to_effective`: an IPv4 address is carried as a mapped one. -/
def socketToEffective : SocketAddr → EffectiveBind
  | .v4 ip port =>
      ⟨#v[0, 0, 0, 0, 0, 0, 0, 0, 0, 0, 0xff, 0xff, ip[0], ip[1], ip[2], ip[3]], port⟩
  | .v6 ip port => ⟨ip, port⟩

/-! ### The Session -/

/-- What the operating system does with `TcpListener::bind` and `local_addr`. -/
inductive BindOutcome
  | bindFailed
  | unnamed
  | bound (addr : SocketAddr)
  deriving DecidableEq

/-- Whether the control loop runs. -/
inductive ServerPhase
  | running
  | returned (result : Except TunnelError Unit)
  deriving DecidableEq

/-- The locals of `serve_control` in its loop, and the server's counters.
`children` lists the Services whose `run_service` task is running. -/
structure Server where
  sessionId : SessionId
  policy : RuntimePolicy
  bindPolicy : BindPolicy
  negotiated : Capabilities
  services : Table ServiceId ServiceName
  names : List ServiceName
  children : List ServiceId
  queue : List Message
  counters : Counters
  phase : ServerPhase

/-- What can happen to a control loop. -/
inductive ServerEvent
  /-- `read_message` delivers; `os` and `o` end the bind and the write it needs -/
  | incoming (m : Message) (os : BindOutcome) (o : WriteOutcome)
  | readFailed (e : ReadError)
  /-- the Session token is cancelled -/
  | cancelled
  /-- the idle timer expires -/
  | idle
  /-- the `open_rx` branch -/
  | outbound (o : WriteOutcome)
  /-- a `run_service` task queues an `Open` -/
  | opened (id : ServiceId) (c : ConnectionId)
  /-- the shutdown queues a `Drain` -/
  | drainQueued (deadlineMs : UInt32)
  /-- a `run_service` task ends -/
  | childEnded (id : ServiceId)
  /-- other Sessions change the shared counters and the bind table -/
  | elsewhere (counters : Counters)

/-- The events of the server that bring it no frame. -/
def ServerEvent.isOwn : ServerEvent → Bool
  | .incoming _ _ _ => false
  | _ => true

/-- How the server answers one `RegisterService`. -/
inductive Verdict
  | accepted (bind : EffectiveBind)
  | refused (code : UInt16)
  deriving DecidableEq

/-- `"service registration rejected"`. -/
def rejectedDiagnostic : BoundedDiagnostic := ⟨"service registration rejected", by decide⟩

namespace Server

/-- What every return drops: the `SessionGuard` takes the Session's entries out
of the bind table. -/
def dropGuard (s : Server) : Server :=
  let binds := s.counters.binds.filter (·.session ≠ s.sessionId)
  { s with counters := { s.counters with
      binds
      sessions := fetchSub s.counters.sessions 1
      services := fetchSub s.counters.services (s.counters.binds.length - binds.length) } }

/-- The loop returns: its guard drops, its tasks are aborted. -/
def finish (s : Server) (result : Except TunnelError Unit) : Server :=
  { s.dropGuard with phase := .returned result, children := [] }

/-- The response frame: `RegisterAck`, or the refusal the peer negotiated. -/
def response (negotiated : Capabilities) (id : ServiceId) : Verdict → Message
  | .accepted bind => .registerAck ⟨id, bind⟩
  | .refused code =>
      if negotiated.has capabilityRegisterReject then
        .registerReject ⟨id, code, rejectedDiagnostic⟩
      else .error ⟨code, rejectedDiagnostic⟩

/-- `register_service` up to its write: bound check, duplicate check, bind
authorization, listener bind. -/
def registerService (s : Server) (register : RegisterService) (os : BindOutcome) :
    Server × Verdict :=
  if min s.bindPolicy.maxServicesPerSession s.policy.limits.servicesPerSession ≤
      s.services.size then (s, .refused 5)
  else if (s.services.lookup register.serviceId).isSome || s.names.contains register.name then
    (s, .refused 1)
  else
    match bindToSocket register.requestedBind s.bindPolicy with
    | .error _ => (s, .refused 2)
    | .ok _ =>
        match os with
        | .bindFailed => (s, .refused 3)
        | .unnamed => (s, .refused 3)
        | .bound addr =>
            let bind := socketToEffective addr
            let services := fetchAdd s.counters.services 1
            ({ s with
              services := s.services.insert register.serviceId register.name
              names := register.name :: s.names
              children := register.serviceId :: s.children
              counters := { s.counters with
                binds := s.counters.binds ++ [BindEntry.mk s.sessionId register.serviceId bind]
                services
                highWaterServices := max s.counters.highWaterServices services } },
              .accepted bind)

/-- The `UnregisterService` branch. -/
def unregisterService (s : Server) (id : ServiceId) : Server :=
  match s.services.lookup id with
  | some name =>
      { s with
        services := s.services.erase id
        names := s.names.erase name
        counters := { s.counters with
          binds := s.counters.binds.filter fun b => b.session ≠ s.sessionId || b.service ≠ id
          services := fetchSub s.counters.services 1 } }
  | none => s

/-- A `write_bounded` whose failure ends the Session. -/
def writing (s : Server) (m : Message) (o : WriteOutcome) : Server × List Write :=
  match writeBounded m o with
  | .ok () => (s, [(m, o)])
  | .error e => (s.finish (.error e), [(m, o)])

/-- The `read_message` branch with a message. -/
def onIncoming (s : Server) (m : Message) (os : BindOutcome) (o : WriteOutcome) :
    Server × List Write :=
  match m with
  | .registerService register =>
      let (s, verdict) := s.registerService register os
      s.writing (response s.negotiated register.serviceId verdict) o
  | .unregisterService unregister => (s.unregisterService unregister.serviceId, [])
  | .openReject _ => (s, [])
  | .ping ping => s.writing (.pong ⟨ping.nonce⟩) o
  | .drain _ => (s.finish (.ok ()), [])
  | _ => (s.finish (.error (.protocol .unexpectedMessage)), [])

/-- The `open_rx` branch; a `Drain` ends the loop once it is written. -/
def onOutbound (s : Server) (m : Message) (rest : List Message) (o : WriteOutcome) :
    Server × List Write :=
  let s := { s with queue := rest }
  match s.writing m o, m with
  | (s, writes), .drain _ =>
      (match s.phase with
        | .running => s.finish (.ok ())
        | .returned _ => s, writes)
  | r, _ => r

/-- `try_send` on the control queue. -/
def trySend (s : Server) (m : Message) : Server :=
  if s.queue.length < s.policy.limits.controlQueue then { s with queue := s.queue ++ [m] } else s

/-- The entries of this Session. -/
def ownBinds (s : Server) : BindTable := s.counters.binds.filter (·.session = s.sessionId)

/-- One completed branch, or what another task does to the loop's state. -/
def step (s : Server) (e : ServerEvent) : Option (Server × List Write) :=
  match e, s.phase with
  | .incoming m os o, .running => some (s.onIncoming m os o)
  | .readFailed .timeout, .running => none
  | .readFailed e, .running => some (s.finish (.error e.toTunnelError), [])
  | .cancelled, .running => some (s.finish (.ok ()), [])
  | .idle, .running => some (s.finish (.error .timeout), [])
  | .outbound o, .running =>
      match s.queue with
      | m :: rest => some (s.onOutbound m rest o)
      | [] => none
  | .opened id c, .running =>
      if id ∈ s.children then some (s.trySend (.open ⟨id, c⟩), []) else none
  | .drainQueued deadlineMs, .running => some (s.trySend (.drain ⟨deadlineMs⟩), [])
  | .childEnded id, .running => some ({ s with children := s.children.erase id }, [])
  -- other Sessions never touch this Session's entries
  | .elsewhere counters, _ =>
      if counters.binds.filter (·.session = s.sessionId) = s.ownBinds then
        some ({ s with counters }, [])
      else none
  | _, .returned _ => none

/-- What a step was, one constructor for each branch. -/
inductive Did (s : Server) : ServerEvent → Server → List Write → Prop
  | incoming {m os o t writes} (hrun : s.phase = .running)
      (heq : s.onIncoming m os o = (t, writes)) : Did s (.incoming m os o) t writes
  | readFailed {err} (hrun : s.phase = .running) (hne : err ≠ .timeout) :
      Did s (.readFailed err) (s.finish (.error err.toTunnelError)) []
  | cancelled (hrun : s.phase = .running) : Did s .cancelled (s.finish (.ok ())) []
  | idle (hrun : s.phase = .running) : Did s .idle (s.finish (.error .timeout)) []
  | outbound {m rest o t writes} (hrun : s.phase = .running) (hqueue : s.queue = m :: rest)
      (heq : s.onOutbound m rest o = (t, writes)) : Did s (.outbound o) t writes
  | opened {id c} (hrun : s.phase = .running) (hchild : id ∈ s.children) :
      Did s (.opened id c) (s.trySend (.open ⟨id, c⟩)) []
  | drainQueued {deadlineMs} (hrun : s.phase = .running) :
      Did s (.drainQueued deadlineMs) (s.trySend (.drain ⟨deadlineMs⟩)) []
  | childEnded {id} (hrun : s.phase = .running) :
      Did s (.childEnded id) { s with children := s.children.erase id } []
  | elsewhere {counters}
      (hsame : counters.binds.filter (·.session = s.sessionId) = s.ownBinds) :
      Did s (.elsewhere counters) { s with counters } []

variable {s t : Server} {writes : List Write} {register : RegisterService} {os : BindOutcome}

/-- **Inversion of the step function.** -/
theorem did_of_step {e : ServerEvent} (h : s.step e = some (t, writes)) : Did s e t writes := by
  unfold step at h
  split at h
  · rename_i hrun
    exact .incoming hrun (Option.some.inj h)
  · cases h
  · rename_i hne hrun
    cases h
    exact .readFailed hrun hne
  · rename_i hrun
    cases h
    exact .cancelled hrun
  · rename_i hrun
    cases h
    exact .idle hrun
  · rename_i hrun
    split at h
    · rename_i hqueue
      exact .outbound hrun hqueue (Option.some.inj h)
    · cases h
  · rename_i hrun
    split_ifs at h with hchild
    cases h
    exact .opened hrun hchild
  · rename_i hrun
    cases h
    exact .drainQueued hrun
  · rename_i hrun
    cases h
    exact .childEnded hrun
  · split_ifs at h with hsame
    cases h
    exact .elsewhere hsame
  · cases h

/-! ### What the branches do to the tables -/

/-- A refusal leaves everything as it was. -/
theorem registerService_refused {code : UInt16}
    (h : s.registerService register os = (t, .refused code)) : t = s := by
  unfold registerService at h
  split_ifs at h
  · exact (Prod.mk.inj h).1.symm
  · exact (Prod.mk.inj h).1.symm
  · split at h
    · exact (Prod.mk.inj h).1.symm
    · split at h
      · exact (Prod.mk.inj h).1.symm
      · exact (Prod.mk.inj h).1.symm
      · cases (Prod.mk.inj h).2

/-- The checks that an accepted registration has passed, and the state it leaves. -/
structure Accepted (s : Server) (register : RegisterService) (os : BindOutcome) (t : Server)
    (bind : EffectiveBind) : Prop where
  room : s.services.size <
    min s.bindPolicy.maxServicesPerSession s.policy.limits.servicesPerSession
  free : s.services.lookup register.serviceId = none
  new : register.name ∉ s.names
  bound : ∃ given addr, bindToSocket register.requestedBind s.bindPolicy = .ok given ∧
    os = .bound addr ∧ bind = socketToEffective addr
  result : t = { s with
    services := s.services.insert register.serviceId register.name
    names := register.name :: s.names
    children := register.serviceId :: s.children
    counters := { s.counters with
      binds := s.counters.binds ++ [⟨s.sessionId, register.serviceId, bind⟩]
      services := fetchAdd s.counters.services 1
      highWaterServices :=
        max s.counters.highWaterServices (fetchAdd s.counters.services 1) } }

theorem accepted_of_registerService {bind : EffectiveBind}
    (h : s.registerService register os = (t, .accepted bind)) :
    Accepted s register os t bind := by
  unfold registerService at h
  split_ifs at h with hfull hdup
  · cases (Prod.mk.inj h).2
  · cases (Prod.mk.inj h).2
  · split at h
    · cases (Prod.mk.inj h).2
    · rename_i given hgiven
      cases os with
      | bindFailed | unnamed => cases (Prod.mk.inj h).2
      | bound addr =>
          obtain ⟨rfl, hbind⟩ := Prod.mk.inj h
          cases hbind
          simp only [Bool.or_eq_true, not_or, Option.not_isSome_iff_eq_none,
            List.contains_iff_mem] at hdup
          exact ⟨Nat.not_le.mp hfull, hdup.1, hdup.2, ⟨given, addr, hgiven, rfl, rfl⟩, rfl⟩

/-- An acceptance enters a free id and a free name, with its bind entry. -/
theorem registerService_accepted {bind : EffectiveBind}
    (h : s.registerService register os = (t, .accepted bind)) :
    s.services.lookup register.serviceId = none ∧
    t.services = s.services.insert register.serviceId register.name ∧
    t.counters.binds = s.counters.binds ++ [⟨s.sessionId, register.serviceId, bind⟩] ∧
    t.sessionId = s.sessionId ∧ t.negotiated = s.negotiated ∧ t.queue = s.queue ∧
    t.phase = s.phase := by
  have haccepted := accepted_of_registerService h
  obtain rfl := haccepted.result
  exact ⟨haccepted.free, rfl, rfl, rfl, rfl, rfl, rfl⟩

theorem unregisterService_frame (s : Server) (id : ServiceId) :
    (s.unregisterService id).sessionId = s.sessionId ∧
    (s.unregisterService id).negotiated = s.negotiated ∧
    (s.unregisterService id).queue = s.queue ∧ (s.unregisterService id).phase = s.phase := by
  unfold unregisterService
  split <;> exact ⟨rfl, rfl, rfl, rfl⟩

/-- The removal of a Service, seen by id. -/
theorem lookup_unregisterService (s : Server) (id k : ServiceId) :
    (s.unregisterService id).services.lookup k
      = if k = id then none else s.services.lookup k := by
  unfold unregisterService
  split
  · exact Table.lookup_erase_eq k id s.services
  · split_ifs with hk
    · rw [hk]
      assumption
    · rfl

/-- The addresses on record for a Service of this Session. -/
def bindsOf (s : Server) (id : ServiceId) : List EffectiveBind :=
  (s.ownBinds.filter (·.service = id)).map (·.bind)

theorem bindsOf_append {u : Server} {id : ServiceId} {bind : EffectiveBind}
    (hid : u.sessionId = s.sessionId)
    (hbinds : u.counters.binds = s.counters.binds ++ [⟨s.sessionId, id, bind⟩]) (k : ServiceId) :
    u.bindsOf k = if k = id then s.bindsOf k ++ [bind] else s.bindsOf k := by
  simp only [bindsOf, ownBinds, hbinds, hid, List.filter_append]
  split_ifs with hk
  · simp [hk]
  · simp [Ne.symm hk]

theorem bindsOf_unregisterService (s : Server) (id k : ServiceId) :
    (s.unregisterService id).bindsOf k
      = if (s.services.lookup id).isSome ∧ k = id then [] else s.bindsOf k := by
  unfold unregisterService
  rcases s.services.lookup id with - | name
  · simp
  · simp only [bindsOf, ownBinds, List.filter_filter, Option.isSome_some, true_and]
    split_ifs with hk
    · subst hk
      rw [List.map_eq_nil_iff, List.filter_eq_nil_iff]
      simp only [Bool.and_eq_true, decide_eq_true_eq, not_and]
      intro b _ hservice hsession hown
      simp_all
    · congr 1
      refine List.filter_congr fun b _ => ?_
      by_cases hb : b.service = k
      · simp [hb, hk]
      · simp [hb]

/-! ### What a step keeps -/

/-- What a branch keeps that enters and removes no Service. -/
structure Kept (s t : Server) : Prop where
  sessionId : t.sessionId = s.sessionId
  negotiated : t.negotiated = s.negotiated
  queue : ∀ m ∈ t.queue, m ∈ s.queue ∨ m.isNotice = true
  running : t.phase = .running → s.phase = .running
  tables : t.phase = .running → t.services = s.services ∧ t.ownBinds = s.ownBinds

theorem Kept.refl (s : Server) : Kept s s := ⟨rfl, rfl, fun _ => .inl, id, fun _ => ⟨rfl, rfl⟩⟩

@[simp] theorem phase_finish (s : Server) (result : Except TunnelError Unit) :
    (s.finish result).phase = .returned result := rfl

theorem finish_ne_running (s : Server) (result : Except TunnelError Unit) :
    (s.finish result).phase ≠ .running := by simp

/-- A Session that has ended keeps no table. -/
theorem Kept.finish (hk : Kept s t) (result : Except TunnelError Unit) :
    Kept s (t.finish result) := by
  have hne := t.finish_ne_running result
  exact ⟨hk.sessionId, hk.negotiated, hk.queue, fun h => absurd h hne, fun h => absurd h hne⟩

theorem kept_finish (s : Server) (result : Except TunnelError Unit) : Kept s (s.finish result) :=
  (Kept.refl s).finish result

theorem kept_trySend (s : Server) {m : Message} (hm : m.isNotice = true) :
    Kept s (s.trySend m) := by
  unfold trySend
  split_ifs
  · refine ⟨rfl, rfl, fun x hx => ?_, id, fun _ => ⟨rfl, rfl⟩⟩
    rcases List.mem_append.mp hx with hx | hx
    · exact .inl hx
    · rw [List.mem_singleton.mp hx]
      exact .inr hm
  · exact Kept.refl s

/-- A write ends the Session unless it completes. -/
theorem writing_cases (s : Server) (m : Message) (o : WriteOutcome) :
    (o = .done ∧ s.writing m o = (s, [(m, o)])) ∨
    (o ≠ .done ∧ ∃ e, s.writing m o = (s.finish (.error e), [(m, o)])) := by
  unfold writing writeBounded
  cases o with
  | done => exact .inl ⟨rfl, by simp⟩
  | failed accepted kind => exact .inr ⟨by simp, ioError kind, by simp⟩
  | cut accepted => exact .inr ⟨by simp, .timeout, by simp⟩

theorem kept_writing (s : Server) (m : Message) (o : WriteOutcome) :
    Kept s (s.writing m o).1 ∧ (s.writing m o).2 = [(m, o)] := by
  rcases s.writing_cases m o with ⟨-, h⟩ | ⟨-, e, h⟩
  · rw [h]
    exact ⟨Kept.refl s, rfl⟩
  · rw [h]
    exact ⟨kept_finish s _, rfl⟩

/-- **The branches without a frame** write at most one notice and keep the
tables. -/
theorem step_own {e : ServerEvent} (hown : e.isOwn = true)
    (hqueue : ∀ m ∈ s.queue, m.isNotice = true) (h : s.step e = some (t, writes)) :
    Kept s t ∧ (writes = [] ∨
      ∃ m o, e = .outbound o ∧ writes = [(m, o)] ∧ m.isNotice = true) := by
  cases did_of_step h with
  | incoming => cases hown
  | readFailed | cancelled | idle => exact ⟨kept_finish s _, .inl rfl⟩
  | @outbound m rest o _ _ _ hq heq =>
      -- the head of the queue is written; a `Drain` ends the Session
      obtain ⟨hkept, hwrites⟩ := kept_writing { s with queue := rest } m o
      have hrest : ∀ x ∈ rest, x ∈ s.queue := fun x hx => hq ▸ List.mem_cons_of_mem _ hx
      have hm : m.isNotice = true := hqueue m (hq ▸ List.mem_cons_self)
      have hthis : Kept s (({ s with queue := rest } : Server).writing m o).1 :=
        ⟨hkept.sessionId, hkept.negotiated, fun x hx => (hkept.queue x hx).imp_left (hrest x),
          hkept.running, hkept.tables⟩
      have hends (u : Server) (hu : Kept s u) :
          Kept s (match u.phase with | .running => u.finish (.ok ()) | .returned _ => u) := by
        split
        · exact hu.finish (.ok ())
        · exact hu
      unfold onOutbound at heq
      dsimp only at heq
      split at heq
      · rename_i _ u ws deadline hw
        rw [hw] at hwrites hthis
        obtain ⟨rfl, rfl⟩ := Prod.mk.inj heq
        exact ⟨hends u hthis, .inr ⟨_, o, rfl, hwrites, rfl⟩⟩
      · rw [heq] at hwrites hthis
        exact ⟨hthis, .inr ⟨_, o, rfl, hwrites, hm⟩⟩
  | opened | drainQueued => exact ⟨kept_trySend s rfl, .inl rfl⟩
  | childEnded => exact ⟨⟨rfl, rfl, fun _ => .inl, id, fun _ => ⟨rfl, rfl⟩⟩, .inl rfl⟩
  | elsewhere hsame => exact ⟨⟨rfl, rfl, fun _ => .inl, id, fun _ => ⟨rfl, hsame⟩⟩, .inl rfl⟩

theorem registerService_frame {register : RegisterService} {os : BindOutcome} {v : Verdict}
    (h : s.registerService register os = (t, v)) :
    t.sessionId = s.sessionId ∧ t.negotiated = s.negotiated ∧ t.queue = s.queue ∧
    t.phase = s.phase := by
  cases v with
  | accepted bind => exact (registerService_accepted h).2.2.2
  | refused code =>
      rw [registerService_refused h]
      exact ⟨rfl, rfl, rfl, rfl⟩

/-- **The branches with a frame**: a registration is answered, a removal is
silent, and everything else keeps the tables. -/
theorem step_incoming {m : Message} {os : BindOutcome} {o : WriteOutcome}
    (h : s.step (.incoming m os o) = some (t, writes)) :
    s.phase = .running ∧
    ((∃ register u v, m = .registerService register ∧ s.registerService register os = (u, v) ∧
        writes = [(response s.negotiated register.serviceId v, o)] ∧
        ((o = .done ∧ t = u) ∨ (o ≠ .done ∧ ∃ e, t = u.finish (.error e)))) ∨
      (∃ unregister, m = .unregisterService unregister ∧
        t = s.unregisterService unregister.serviceId ∧ writes = []) ∨
      ((∀ register, m ≠ .registerService register) ∧
        (∀ unregister, m ≠ .unregisterService unregister) ∧ Kept s t ∧
        (writes = [] ∨ ∃ pong, writes = [(.pong pong, o)]))) := by
  cases did_of_step h with
  | incoming hrun heq =>
      refine ⟨hrun, ?_⟩
      unfold onIncoming at heq
      split at heq
      · rename_i register
        rcases hr : s.registerService register os with ⟨u, v⟩
        refine .inl ⟨register, u, v, rfl, hr, ?_⟩
        rw [hr] at heq
        dsimp only at heq
        rw [(registerService_frame hr).2.1] at heq
        rcases u.writing_cases (response s.negotiated register.serviceId v) o with
          ⟨ho, hw⟩ | ⟨ho, e, hw⟩
        · rw [hw] at heq
          obtain ⟨rfl, rfl⟩ := Prod.mk.inj heq
          exact ⟨rfl, .inl ⟨ho, rfl⟩⟩
        · rw [hw] at heq
          obtain ⟨rfl, rfl⟩ := Prod.mk.inj heq
          exact ⟨rfl, .inr ⟨ho, e, rfl⟩⟩
      · obtain ⟨rfl, rfl⟩ := Prod.mk.inj heq
        exact .inr (.inl ⟨_, rfl, rfl, rfl⟩)
      · obtain ⟨rfl, rfl⟩ := Prod.mk.inj heq
        exact .inr (.inr ⟨by simp, by simp, Kept.refl _, .inl rfl⟩)
      · rename_i ping
        obtain ⟨hkept, hwrites⟩ := s.kept_writing (.pong ⟨ping.nonce⟩) o
        rw [heq] at hkept hwrites
        exact .inr (.inr ⟨by simp, by simp, hkept, .inr ⟨_, hwrites⟩⟩)
      · obtain ⟨rfl, rfl⟩ := Prod.mk.inj heq
        exact .inr (.inr ⟨by simp, by simp, kept_finish s _, .inl rfl⟩)
      · rename_i hreg hunreg _ _ _
        obtain ⟨rfl, rfl⟩ := Prod.mk.inj heq
        exact .inr (.inr ⟨hreg, hunreg, kept_finish s _, .inl rfl⟩)

/-! ### What a step writes -/

/-- A write of the loop that does not complete ends it. -/
theorem writes_writing {m : Message} {o : WriteOutcome} (h : s.writing m o = (t, writes)) :
    writes = [(m, o)] ∧ (o = .done ∨ t.phase ≠ .running) := by
  rcases s.writing_cases m o with ⟨ho, hw⟩ | ⟨-, e, hw⟩
  · rw [hw] at h
    obtain ⟨-, rfl⟩ := Prod.mk.inj h
    exact ⟨rfl, .inl ho⟩
  · rw [hw] at h
    obtain ⟨rfl, rfl⟩ := Prod.mk.inj h
    exact ⟨rfl, .inr (finish_ne_running s _)⟩

theorem writes_onOutbound {m : Message} {rest : List Message} {o : WriteOutcome}
    (h : s.onOutbound m rest o = (t, writes)) :
    writes = [(m, o)] ∧ (o = .done ∨ t.phase ≠ .running) := by
  unfold onOutbound at h
  dsimp only at h
  split at h
  · rename_i _ u ws deadline hw
    obtain ⟨rfl, rfl⟩ := Prod.mk.inj h
    refine ⟨(writes_writing hw).1, .inr ?_⟩
    split
    · exact finish_ne_running u _
    · simp [*]
  · exact writes_writing h

/-- **One step of the server writes at most one frame**, in its loop, and a
write that does not complete ends it. -/
theorem step_writes {e : ServerEvent} (h : s.step e = some (t, writes)) :
    (t.phase = .running → s.phase = .running) ∧ (writes = [] ∨ s.phase = .running ∧
      ∃ w, writes = [w] ∧ (w.2 = .done ∨ t.phase ≠ .running)) := by
  have hquiet (hrun : s.phase = .running) : (t.phase = .running → s.phase = .running) ∧
      (([] : List Write) = [] ∨ s.phase = .running ∧
        ∃ w, ([] : List Write) = [w] ∧ (w.2 = .done ∨ t.phase ≠ .running)) :=
    ⟨fun _ => hrun, .inl rfl⟩
  have hwrite {m : Message} {o : WriteOutcome} (hrun : s.phase = .running)
      (hw : writes = [(m, o)] ∧ (o = .done ∨ t.phase ≠ .running)) :
      (t.phase = .running → s.phase = .running) ∧ (writes = [] ∨ s.phase = .running ∧
        ∃ w, writes = [w] ∧ (w.2 = .done ∨ t.phase ≠ .running)) :=
    ⟨fun _ => hrun, .inr ⟨hrun, (m, o), hw.1, hw.2⟩⟩
  cases did_of_step h with
  | incoming hrun heq =>
      unfold onIncoming at heq
      split at heq
      · exact hwrite hrun (writes_writing heq)
      · cases heq
        exact hquiet hrun
      · cases heq
        exact hquiet hrun
      · exact hwrite hrun (writes_writing heq)
      · cases heq
        exact hquiet hrun
      · cases heq
        exact hquiet hrun
  | outbound hrun _ heq => exact hwrite hrun (writes_onOutbound heq)
  | readFailed hrun | cancelled hrun | idle hrun | opened hrun | drainQueued hrun
  | childEnded hrun => exact hquiet hrun
  | elsewhere => exact ⟨id, .inl rfl⟩

end Server

end Eggtunnel
