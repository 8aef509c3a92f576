/-
Eggtunnel/Listeners.lean

Bind authorization, and the listeners of a server.

`bind_to_socket` lets a request through exactly if it is `Authorized`, and what it
returns is the address and the port of the request (`bindToSocket_eq_ok_iff`).
Only `register_service` binds listeners, at what `bind_to_socket` has returned, and
every Session of a server has the server's policy.  So over any run, on any
Sessions, whatever is listening was authorized (`Sound.step`, `bind_authorization`).

`Listening` is the server with its listeners: those of the `run_service` tasks that
are alive, and a record of every listener that was ever bound.  The operating
system is taken to bind what it is given, with a port of its own for port 0
(`honest`).
-/
import Eggtunnel.Teardown
import Eggtunnel.ServiceTables
import Mathlib.Tactic.IntervalCases

namespace Eggtunnel

/-! ### What a policy authorizes -/

/-- The address a request is for. -/
def RequestedBind.address : RequestedBind → Vector UInt8 16
  | .loopback _ => localhostOctets
  | .ip address _ => address

/-- The port that is asked for. -/
def RequestedBind.port : RequestedBind → UInt16
  | .loopback port => port
  | .ip _ port => port

/-- `::1`, or `127.0.0.0/8` as a mapped address. -/
def IsLoopback (address : Vector UInt8 16) : Prop :=
  address = localhostOctets ∨
    ∃ b c d, address = #v[0, 0, 0, 0, 0, 0, 0, 0, 0, 0, 0xff, 0xff, 127, b, c, d]

/-- The policy lets the request through. -/
structure Authorized (p : BindPolicy) (request : RequestedBind) : Prop where
  reach : IsLoopback request.address ∨ p.allowPublicAddresses = true
  listed : p.allowedAddresses = [] ∨ request.address ∈ p.allowedAddresses
  port : (request.port = 0 ∧ p.allowEphemeralPorts = true) ∨
    (request.port ≠ 0 ∧ (p.allowedPortRanges = [] ∨
      ∃ range ∈ p.allowedPortRanges, range.1 ≤ request.port ∧ request.port ≤ range.2))

theorem isLoopbackOctets_iff {address : Vector UInt8 16} :
    isLoopbackOctets address = true ↔ IsLoopback address := by
  rw [isLoopbackOctets, isIpv4Mapped, Bool.or_eq_true, Bool.and_eq_true, decide_eq_true_eq,
    decide_eq_true_eq, decide_eq_true_eq]
  refine or_congr Iff.rfl ⟨?_, ?_⟩
  · rintro ⟨hmapped, hfirst⟩
    refine ⟨address[13], address[14], address[15], Vector.ext fun i hi => ?_⟩
    have hlow (h : i < 12) : address[i] =
        ([0, 0, 0, 0, 0, 0, 0, 0, 0, 0, 0xff, 0xff] : Bytes).getD i 0 := by
      rw [← hmapped, List.getD_eq_getElem?_getD, List.getElem?_take_of_lt h]
      simp [hi]
    interval_cases i <;> first | exact hlow (by decide) | exact hfirst | rfl
  · rintro ⟨b, c, d, rfl⟩
    exact ⟨rfl, rfl⟩

theorem permitsAddress_iff {p : BindPolicy} {address : Vector UInt8 16} {isLoopback : Bool} :
    p.permitsAddress address isLoopback = true ↔
      (isLoopback = true ∨ p.allowPublicAddresses = true) ∧
        (p.allowedAddresses = [] ∨ address ∈ p.allowedAddresses) := by
  rw [BindPolicy.permitsAddress, Bool.and_eq_true, Bool.or_eq_true, Bool.or_eq_true,
    List.isEmpty_iff, List.contains_iff_mem]

theorem permitsPort_iff {p : BindPolicy} {port : UInt16} :
    p.permitsPort port = true ↔ (port = 0 ∧ p.allowEphemeralPorts = true) ∨
      (port ≠ 0 ∧ (p.allowedPortRanges = [] ∨
        ∃ range ∈ p.allowedPortRanges, range.1 ≤ port ∧ port ≤ range.2)) := by
  unfold BindPolicy.permitsPort
  split_ifs with hzero
  · exact ⟨fun h => .inl ⟨hzero, h⟩, fun h => h.elim And.right fun h => absurd hzero h.1⟩
  · simp only [Bool.or_eq_true, List.isEmpty_iff, List.any_eq_true, Bool.and_eq_true,
      decide_eq_true_eq]
    exact ⟨fun h => .inr ⟨hzero, h⟩, fun h => h.elim (fun h => absurd h.1 hzero) And.right⟩

/-- The check that both forms of a request go through. -/
theorem refused_iff {p : BindPolicy} {request : RequestedBind} {isLoopback : Bool}
    (h : isLoopback = true ↔ IsLoopback request.address) :
    (!p.permitsAddress request.address isLoopback || !p.permitsPort request.port) = true ↔
      ¬ Authorized p request := by
  rw [Bool.or_eq_true, Bool.not_eq_true', Bool.not_eq_true', Bool.eq_false_iff, Bool.eq_false_iff,
    ne_eq, ne_eq, ← not_and_or, permitsAddress_iff, permitsPort_iff, h, not_iff_not]
  exact ⟨fun h => ⟨h.1.1, h.1.2, h.2⟩, fun h => ⟨⟨h.reach, h.listed⟩, h.port⟩⟩

/-- **`bind_to_socket` is exact.** -/
theorem bindToSocket_eq_ok_iff {request : RequestedBind} {p : BindPolicy} {addr : SocketAddr} :
    bindToSocket request p = .ok addr ↔
      addr = .v6 request.address request.port ∧ Authorized p request := by
  have hchecked {isLoopback : Bool} (h : isLoopback = true ↔ IsLoopback request.address) :
      (if !p.permitsAddress request.address isLoopback || !p.permitsPort request.port then
        Except.error TunnelError.authorization
      else .ok (.v6 request.address request.port)) = .ok addr ↔
        addr = .v6 request.address request.port ∧ Authorized p request := by
    split_ifs with hrefused
    · exact iff_of_false nofun fun hboth => (refused_iff h).mp hrefused hboth.2
    · have hauthorized := not_not.mp (mt (refused_iff h).mpr hrefused)
      rw [Except.ok.injEq, eq_comm, and_iff_left hauthorized]
  cases request with
  | loopback port => exact hchecked (iff_of_true rfl (.inl rfl))
  | ip address port => exact hchecked isLoopbackOctets_iff

/-! ### The listeners of a server -/

/-- What the operating system binds when it is given an address: that address,
with a port of its own for port 0. -/
def SocketAddr.grants : SocketAddr → SocketAddr → Bool
  | .v4 ip port, .v4 ip' port' => ip' = ip && (port = 0 || port' = port)
  | .v6 ip port, .v6 ip' port' => ip' = ip && (port = 0 || port' = port)
  | _, _ => false

/-- The listener that `register_service` binds.  One whose name cannot be read is
dropped again. -/
def Server.listener (s : Server) (register : RegisterService) (os : BindOutcome) :
    Option SocketAddr :=
  if min s.bindPolicy.maxServicesPerSession s.policy.limits.servicesPerSession ≤
      s.services.size then none
  else if (s.services.lookup register.serviceId).isSome || s.names.contains register.name then none
  else
    match bindToSocket register.requestedBind s.bindPolicy with
    | .error _ => none
    | .ok given =>
        match os with
        | .bindFailed => none
        | .unnamed => some given
        | .bound addr => some addr

/-- The listener that a step binds, and the request for it. -/
def Hub.listener (s : Hub) : HubEvent → Option (RequestedBind × SocketAddr)
  | .control k (.incoming (.registerService register) os _) =>
      (s.sessions.lookup k).bind fun session =>
        ((s.lent session).listener register os).map (register.requestedBind, ·)
  | _ => none

/-- The server with the listeners of its `run_service` tasks; `opened` records
every listener that was ever bound. -/
structure Listening where
  hub : Hub
  listeners : Table RegistrationId SocketAddr
  opened : List (RequestedBind × SocketAddr)

namespace Listening

/-- Nothing is bound. -/
def init (c : HubConfig) : Listening := ⟨.init c, ∅, []⟩

/-- The listeners, with the one a step binds for the task it may spawn. -/
def offered (s : Listening) (e : HubEvent) : Table RegistrationId SocketAddr :=
  match s.hub.listener e with
  | some (_, addr) => s.listeners.insert s.hub.next addr
  | none => s.listeners

/-- A listener goes with its task. -/
def step (s : Listening) (e : HubEvent) : Option Listening :=
  (s.hub.step e).map fun hub =>
    { hub
      listeners := (s.offered e).retain fun r _ => (hub.tasks.lookup r).isSome
      opened := s.opened ++ (s.hub.listener e).toList }

/-- The operating system binds what it is given. -/
def honest (s : Listening) : HubEvent → Bool
  | .control _ (.incoming (.registerService register) (.bound addr) _) =>
      match bindToSocket register.requestedBind s.hub.bindPolicy with
      | .ok given => given.grants addr
      | .error _ => true
  | _ => true

end Listening

/-! ### What a step binds -/

namespace Server

variable {s t : Server} {register : RegisterService} {os : BindOutcome} {addr : SocketAddr}

theorem listener_eq_some (h : s.listener register os = some addr) :
    ∃ given, bindToSocket register.requestedBind s.bindPolicy = .ok given ∧
      ((os = .unnamed ∧ addr = given) ∨ os = .bound addr) := by
  unfold listener at h
  split_ifs at h
  split at h
  · cases h
  · rename_i given hgiven
    refine ⟨given, hgiven, ?_⟩
    cases os with
    | bindFailed => cases h
    | unnamed => exact .inl ⟨rfl, (Option.some.inj h).symm⟩
    | bound addr => exact .inr (congrArg _ (Option.some.inj h))

/-- An accepted registration listens where it says. -/
theorem listener_of_accepted {bind : EffectiveBind}
    (h : s.registerService register os = (t, .accepted bind)) :
    ∃ addr, s.listener register os = some addr ∧ bind = socketToEffective addr := by
  obtain ⟨hroom, hfree, hnew, ⟨given, addr, hgiven, rfl, rfl⟩, -⟩ := accepted_of_registerService h
  refine ⟨addr, ?_, rfl⟩
  have hfits : ¬min s.bindPolicy.maxServicesPerSession s.policy.limits.servicesPerSession
      ≤ s.services.size := Nat.not_le.mpr hroom
  have hunused : ¬((s.services.lookup register.serviceId).isSome
      || s.names.contains register.name) = true := by
    rw [Bool.or_eq_true, List.contains_iff_mem, hfree]
    exact not_or.mpr ⟨Bool.false_ne_true, hnew⟩
  rw [listener, if_neg hfits, if_neg hunused, hgiven]

/-- A branch enters no bind but that of the listener it binds. -/
theorem binds_of_branch {e : ServerEvent} {writes : List Write} (he : e.isBranch = true)
    (h : s.step e = some (t, writes)) {b : BindEntry} (hb : b ∈ t.counters.binds) :
    b ∈ s.counters.binds ∨ ∃ register os o addr, e = .incoming (.registerService register) os o ∧
      s.listener register os = some addr ∧ b.bind = socketToEffective addr := by
  have hedited : b ∈ (s.edited e).counters.binds := by
    rcases step_edited he h with ⟨-, htables⟩ | ⟨-, htables⟩
    · rwa [binds_of_tables htables] at hb
    · rw [binds_of_tables htables] at hb
      exact (List.mem_filter.mp hb).1
  rcases s.edited_cases e with heq | ⟨register, os, o, bind, rfl, hr⟩ |
    ⟨unregister, os, o, name, -, hname, heq⟩
  · exact .inl (heq ▸ hedited)
  · rw [(registerService_accepted hr).2.2.1] at hedited
    rcases List.mem_append.mp hedited with hold | hnew
    · exact .inl hold
    · obtain rfl := List.mem_singleton.mp hnew
      obtain ⟨addr, haddr, hbind⟩ := listener_of_accepted hr
      exact .inr ⟨register, os, o, addr, rfl, haddr, hbind⟩
  · obtain ⟨-, -, hbinds, -⟩ := Tables.mk.inj (tables_of_removed hname)
    rw [heq, hbinds] at hedited
    exact .inl (List.mem_filter.mp hedited).1

end Server

namespace Hub

variable {s t : Hub} {e : HubEvent}

theorem listener_control {k : ContextId} {session : ServerSession} {register : RegisterService}
    {os : BindOutcome} {o : WriteOutcome} {addr : SocketAddr}
    (hk : s.sessions.lookup k = some session)
    (h : (s.lent session).listener register os = some addr) :
    s.listener (.control k (.incoming (.registerService register) os o))
      = some (register.requestedBind, addr) := by
  rw [listener, hk, Option.bind_some, h]
  rfl

/-- A task is there already, or is spawned with a listener. -/
theorem task_of_step (h : s.step e = some t) {r : RegistrationId}
    (hr : (t.tasks.lookup r).isSome = true) :
    (s.tasks.lookup r).isSome = true ∨ (r = s.next ∧ ∃ l, s.listener e = some l) := by
  rcases tasks_step h with hkept | ⟨k, register, os, o, rfl, htasks, -, session, u, bind, hk, hr'⟩
  · obtain ⟨task', hr'⟩ := Option.isSome_iff_exists.mp hr
    obtain ⟨task, htask, -⟩ := hkept r task' hr'
    exact .inl (Option.isSome_iff_exists.mpr ⟨task, htask⟩)
  · rw [htasks, Table.lookup_insert_eq] at hr
    split_ifs at hr with hrnext
    · obtain ⟨addr, haddr, -⟩ := Server.listener_of_accepted hr'
      exact .inr ⟨hrnext, _, listener_control hk haddr⟩
    · exact .inl hr

/-- A bind is on record already, or is that of a new listener. -/
theorem binds_of_step (h : s.step e = some t) {b : BindEntry} (hb : b ∈ t.counters.binds) :
    b ∈ s.counters.binds ∨
      ∃ request addr, s.listener e = some (request, addr) ∧ b.bind = socketToEffective addr := by
  cases hsessions : e.isSessions with
  | false => exact .inl ((aside_step hsessions h).binds ▸ hb)
  | true =>
    have hdid := did_of_step h
    cases e with
    | connect id principal negotiated =>
        obtain rfl := hdid
        unfold Hub.connect at hb
        dsimp only at hb
        split_ifs at hb <;> exact .inl hb
    | greet k o =>
        obtain ⟨session, -, -, -, rfl⟩ := hdid
        unfold Hub.greet at hb
        dsimp only at hb
        split at hb
        · exact .inl hb
        · obtain ⟨p, -, heq⟩ := Hub.conclude_frame _ k _ false
          rw [heq] at hb
          exact .inl (List.mem_filter.mp hb).1
    | control k ev =>
        obtain ⟨session, server, writes, hk, -, hbranch, hstep, rfl⟩ := hdid
        obtain ⟨p, -, heq⟩ := Hub.conclude_frame _ k _ (breaks ev server)
        rw [heq] at hb
        rcases Server.binds_of_branch hbranch hstep hb with
          hold | ⟨register, os, o, addr, rfl, haddr, hbind⟩
        · exact .inl hold
        · exact .inr ⟨register.requestedBind, addr, listener_control hk haddr, hbind⟩
    | contextDropped k =>
        obtain ⟨session, -, -, rfl⟩ := hdid
        exact .inl hb
    | _ => cases hsessions

end Hub

/-! ### Whole runs -/

theorem SocketAddr.grants_self (addr : SocketAddr) : addr.grants addr = true := by
  cases addr <;> simp [grants]

theorem SocketAddr.eq_of_grants {ip : Vector UInt8 16} {port : UInt16} {addr : SocketAddr}
    (h : (SocketAddr.v6 ip port).grants addr = true) :
    ∃ port', addr = .v6 ip port' ∧ (port ≠ 0 → port' = port) := by
  cases addr with
  | v4 => cases h
  | v6 ip' port' =>
      simp only [grants, Bool.and_eq_true, Bool.or_eq_true, decide_eq_true_eq] at h
      obtain ⟨rfl, hport⟩ := h
      exact ⟨port', rfl, fun hne => hport.resolve_left hne⟩

namespace Listening

variable {c : HubConfig} {s t : Listening} {e : HubEvent}

/-- What is listening, was bound, or is on record, was authorized. -/
structure Sound (c : HubConfig) (s : Listening) : Prop where
  policy : s.hub.policy = c.policy
  bindPolicy : s.hub.bindPolicy = c.bindPolicy
  tidy : ∀ k session, s.hub.sessions.lookup k = some session → Hub.Tidy c session
  listening : ∀ r, (s.listeners.lookup r).isSome = (s.hub.tasks.lookup r).isSome
  live : ∀ r addr, s.listeners.lookup r = some addr → ∃ request, (request, addr) ∈ s.opened
  recorded : ∀ b ∈ s.hub.counters.binds, ∃ request addr, (request, addr) ∈ s.opened ∧
    b.bind = socketToEffective addr
  opened : ∀ request addr, (request, addr) ∈ s.opened → Authorized c.bindPolicy request ∧
    (SocketAddr.v6 request.address request.port).grants addr = true

theorem Sound.init (c : HubConfig) : Sound c (init c) where
  policy := rfl
  bindPolicy := rfl
  tidy k session h := by cases h
  listening _ := rfl
  live r addr h := by cases h
  recorded b h := by cases h
  opened request addr h := by cases h

/-- A listener that is bound now was authorized. -/
theorem Sound.listener (hs : Sound c s) (hhonest : s.honest e = true) {request : RequestedBind}
    {addr : SocketAddr} (h : s.hub.listener e = some (request, addr)) :
    Authorized c.bindPolicy request ∧
      (SocketAddr.v6 request.address request.port).grants addr = true := by
  unfold Hub.listener at h
  split at h
  · rename_i k register os o
    obtain ⟨session, hk, hmap⟩ := Option.bind_eq_some_iff.mp h
    obtain ⟨addr', hlistener, heq⟩ := Option.map_eq_some_iff.mp hmap
    obtain ⟨rfl, rfl⟩ := Prod.mk.inj heq
    obtain ⟨given, hgiven, hos⟩ := Server.listener_eq_some hlistener
    rw [show (s.hub.lent session).bindPolicy = _ from (hs.tidy k session hk).bindPolicy] at hgiven
    obtain ⟨rfl, hauthorized⟩ := bindToSocket_eq_ok_iff.mp hgiven
    refine ⟨hauthorized, ?_⟩
    rcases hos with ⟨-, rfl⟩ | rfl
    · exact SocketAddr.grants_self _
    · dsimp only [honest] at hhonest
      rwa [hs.bindPolicy, hgiven] at hhonest
  · cases h

/-- A listener is an old one, or the one that is bound. -/
theorem lookup_offered {r : RegistrationId} {addr : SocketAddr}
    (h : (s.offered e).lookup r = some addr) :
    s.listeners.lookup r = some addr ∨ ∃ request, s.hub.listener e = some (request, addr) := by
  unfold offered at h
  split at h
  · rename_i request addr' hlistener
    rw [Table.lookup_insert_eq] at h
    split_ifs at h
    · obtain rfl := Option.some.inj h
      exact .inr ⟨request, hlistener⟩
    · exact .inl h
  · exact .inl h

/-- Every task that was there or is spawned has a listener on offer. -/
theorem isSome_offered {r : RegistrationId} (h : (s.listeners.lookup r).isSome = true ∨
    (r = s.hub.next ∧ ∃ l, s.hub.listener e = some l)) :
    ((s.offered e).lookup r).isSome = true := by
  unfold offered
  split
  · rw [Table.lookup_insert_eq]
    split_ifs with hr
    · rfl
    · exact h.resolve_right fun hnext => hr hnext.1
  · rename_i hnone
    refine h.resolve_right ?_
    rintro ⟨-, l, hl⟩
    cases hnone.symm.trans hl

theorem Sound.step (hs : Sound c s) (hhonest : s.honest e = true) (h : s.step e = some t) :
    Sound c t := by
  obtain ⟨hub, hstep, rfl⟩ := Option.map_eq_some_iff.mp h
  have hsteady := Hub.steady_step hstep
  have hopened {l : RequestedBind × SocketAddr} (hl : l ∈ s.opened) :
      l ∈ s.opened ++ (s.hub.listener e).toList := List.mem_append_left _ hl
  have hnew {l : RequestedBind × SocketAddr} (hl : s.hub.listener e = some l) :
      l ∈ s.opened ++ (s.hub.listener e).toList :=
    List.mem_append_right _ (Option.mem_toList.mpr hl)
  refine ⟨hsteady.policy.trans hs.policy, hsteady.bindPolicy.trans hs.bindPolicy,
    fun k session' hk' => .move hs.policy hs.bindPolicy hs.tidy (Hub.sessionMove_of_step hstep hk'),
    fun r => ?_, fun r addr hr => ?_, fun b hb => ?_, fun request addr hmem => ?_⟩
  · dsimp only
    rw [Table.lookup_retain]
    cases htask : (hub.tasks.lookup r).isSome with
    | false => cases (s.offered e).lookup r <;> rfl
    | true =>
        have hoffered := isSome_offered
          ((Hub.task_of_step hstep htask).imp_left fun hold => (hs.listening r).trans hold)
        obtain ⟨addr, haddr⟩ := Option.isSome_iff_exists.mp hoffered
        rw [haddr]
        rfl
  · dsimp only at hr
    rw [Table.lookup_retain, Option.filter_eq_some_iff] at hr
    rcases lookup_offered hr.1 with hold | ⟨request, hlistener⟩
    · obtain ⟨request, hmem⟩ := hs.live r addr hold
      exact ⟨request, hopened hmem⟩
    · exact ⟨request, hnew hlistener⟩
  · rcases Hub.binds_of_step hstep hb with hold | ⟨request, addr, hlistener, hbind⟩
    · obtain ⟨request, addr, hmem, hbind⟩ := hs.recorded b hold
      exact ⟨request, addr, hopened hmem, hbind⟩
    · exact ⟨request, addr, hnew hlistener, hbind⟩
  · rcases List.mem_append.mp hmem with hold | hlistener
    · exact hs.opened request addr hold
    · exact hs.listener hhonest (Option.mem_toList.mp hlistener)

/-- **Bind authorization is exact and holds for every listener.**  `bind_to_socket`
returns an address exactly if it is that of the request and the request is
authorized.  And in every run of a server, on any of its Sessions: the tasks that
are alive are those with a listener, every listener of theirs and every bind on
record is one of those that were opened; and each listener that was ever opened
is at the address of its request, which was authorized.  So without
`allow_public_addresses` it is a loopback address, and with an allowlist it is on
it, whichever the form of the request. -/
theorem bind_authorization :
    (∀ request p addr, bindToSocket request p = .ok addr ↔
      addr = .v6 request.address request.port ∧ Authorized p request) ∧
    ∀ (c : HubConfig) (es : List HubEvent) (s : Listening),
      AllSteps step (fun s e => s.honest e = true) (init c) es →
      exec step (init c) es = some s →
        (∀ r, (s.listeners.lookup r).isSome = (s.hub.tasks.lookup r).isSome) ∧
        (∀ r addr, s.listeners.lookup r = some addr → ∃ request, (request, addr) ∈ s.opened) ∧
        (∀ b ∈ s.hub.counters.binds, ∃ request addr, (request, addr) ∈ s.opened ∧
          b.bind = socketToEffective addr) ∧
        ∀ request addr, (request, addr) ∈ s.opened →
          Authorized c.bindPolicy request ∧
          ∃ port, addr = .v6 request.address port ∧
            (request.port ≠ 0 → port = request.port) ∧
            (c.bindPolicy.allowPublicAddresses = false → IsLoopback request.address) ∧
            (c.bindPolicy.allowedAddresses ≠ [] →
              request.address ∈ c.bindPolicy.allowedAddresses) := by
  refine ⟨fun request p addr => bindToSocket_eq_ok_iff, fun c es s hhonest hrun => ?_⟩
  have hs : Sound c s := exec_inv (fun _ _ _ => Sound.step) (.init c) hhonest hrun
  refine ⟨hs.listening, hs.live, hs.recorded, fun request addr hmem => ?_⟩
  obtain ⟨hauthorized, hgrants⟩ := hs.opened request addr hmem
  obtain ⟨port, rfl, hport⟩ := SocketAddr.eq_of_grants hgrants
  refine ⟨hauthorized, port, rfl, hport, fun hprivate => ?_, fun hlist => ?_⟩
  · refine hauthorized.reach.resolve_right fun hpublic => ?_
    rw [hprivate] at hpublic
    cases hpublic
  · exact hauthorized.listed.resolve_left hlist

/-- One Session registers a Service, and asks for another one at an address that
is not a loopback address. -/
def askForPublic : List HubEvent :=
  [.connect Hub.sampleId none correlatedPeer, .greet 0 .done,
    .control 0 (.incoming (.registerService webService.registration)
      (.bound (.v6 localhostOctets 1000)) .done),
    .control 0 (.incoming (.registerService { mailService.registration with
      requestedBind := .ip (Vector.replicate 16 7) 0 })
      (.bound (.v6 (Vector.replicate 16 7) 1001)) .done)]

/-- The server after that run. -/
def afterAsking : Listening := (exec step (init Hub.smallHub) askForPublic).get (by decide +kernel)

theorem bind_authorization_after_asking :
    exec step (init Hub.smallHub) askForPublic = some afterAsking ∧
      afterAsking.opened.length = 1 ∧
      ∀ request addr, (request, addr) ∈ afterAsking.opened → IsLoopback request.address := by
  have hrun : exec step (init Hub.smallHub) askForPublic = some afterAsking :=
    Option.eq_some_of_isSome _
  obtain ⟨-, -, -, hopened⟩ := bind_authorization.2 Hub.smallHub askForPublic afterAsking
    (by decide +kernel) hrun
  refine ⟨hrun, by decide +kernel, fun request addr hmem => ?_⟩
  obtain ⟨-, port, -, -, hloopback, -⟩ := hopened request addr hmem
  exact hloopback rfl

end Listening

end Eggtunnel
