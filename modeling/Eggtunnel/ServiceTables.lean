/-
Eggtunnel/ServiceTables.lean

The tables of the registered Services, over all Sessions of a server.

A registration is recorded in the `services` map and the `names` set of its
Session, in the bind table that all Sessions share, and in the counter of
Services; a Session in the registry and in the counter of Sessions.  These are
updated one by one, and a Session that ends leaves the shared ones to its
guard, which only knows its `SessionId`.  The bind table is an index of what
the live Sessions have in their maps (`Indexes`), and from this the guard's
decrement is the right one wherever a Session ends.
-/
import Eggtunnel.Accounting
import Eggtunnel.Index

namespace Eggtunnel

/-! ### One Session -/

namespace Server

variable {s t : Server} {e : ServerEvent} {writes : List Write}

/-- What registrations and Sessions are recorded in. -/
structure Tables where
  services : Table ServiceId ServiceName
  names : List ServiceName
  binds : BindTable
  serviceGauge : Nat
  sessionGauge : Nat

/-- The tables a registration is entered in. -/
def tables (s : Server) : Tables :=
  ⟨s.services, s.names, s.counters.binds, s.counters.services, s.counters.sessions⟩

theorem binds_of_tables {s t : Server} (h : t.tables = s.tables) :
    t.counters.binds = s.counters.binds :=
  congrArg Tables.binds h

/-- The tables after a branch, before its write. -/
def edited (s : Server) : ServerEvent → Server
  | .incoming (.registerService register) os _ => (s.registerService register os).1
  | .incoming (.unregisterService unregister) _ _ => s.unregisterService unregister.serviceId
  | _ => s

/-- The Session goes on with these tables, or has ended and dropped its guard. -/
def Ends (u t : Server) : Prop :=
  (t.phase = .running ∧ t.tables = u.tables) ∨ (t.phase ≠ .running ∧ t.tables = u.dropGuard.tables)

theorem Ends.of_finish {u : Server} {result : Except TunnelError Unit}
    (h : t.tables = u.tables) (hid : t.sessionId = u.sessionId) : Ends u (t.finish result) := by
  refine .inr ⟨t.finish_ne_running result, ?_⟩
  obtain ⟨hservices, hnames, hbinds, hgauge, hsessions⟩ := Tables.mk.inj h
  simp only [tables, finish, dropGuard, hservices, hnames, hbinds, hgauge, hsessions, hid]

theorem Ends.of_writing {u : Server} {m : Message} {o : WriteOutcome} (hphase : t.phase = .running)
    (h : t.tables = u.tables) (hid : t.sessionId = u.sessionId) : Ends u (t.writing m o).1 := by
  rcases t.writing_cases m o with ⟨-, hw⟩ | ⟨-, e, hw⟩
  · rw [hw]
    exact .inl ⟨hphase, h⟩
  · rw [hw]
    exact .of_finish h hid

/-- **A branch edits the tables, and then goes on or ends.** -/
theorem step_edited (he : e.isBranch = true) (h : s.step e = some (t, writes)) :
    Ends (s.edited e) t := by
  have hpair {r : Server × List Write} (heq : r = (t, writes)) {u : Server}
      (hr : Ends u r.1) : Ends u t := by
    rwa [heq] at hr
  have hfinish {result : Except TunnelError Unit} : Ends s (s.finish result) := .of_finish rfl rfl
  cases did_of_step h with
  | opened | childEnded | elsewhere => cases he
  | @incoming m os o _ _ hrun heq =>
      refine hpair heq ?_
      unfold onIncoming
      split
      · rename_i register
        rcases hr : s.registerService register os with ⟨u, v⟩
        have hframe := registerService_frame hr
        have hedited : s.edited (.incoming (.registerService register) os o) = u :=
          congrArg Prod.fst hr
        rw [hedited]
        exact .of_writing (hframe.2.2.2.trans hrun) rfl rfl
      · rename_i unregister
        exact .inl ⟨(s.unregisterService_frame _).2.2.2.trans hrun, rfl⟩
      · exact .inl ⟨hrun, rfl⟩
      · exact .of_writing hrun rfl rfl
      · exact hfinish
      · rename_i hreg hunreg _ _ _
        have hedited : s.edited (.incoming m os o) = s := by
          unfold edited
          split
          · rename_i heq
            cases heq
            exact absurd rfl (hreg _)
          · rename_i heq
            cases heq
            exact absurd rfl (hunreg _)
          · rfl
        rw [hedited]
        exact hfinish
  | readFailed | cancelled | idle => exact hfinish
  | @outbound m rest o _ _ hrun hqueue heq =>
      have hw : Ends s (({ s with queue := rest } : Server).writing m o).1 :=
        .of_writing hrun rfl rfl
      refine hpair heq ?_
      unfold onOutbound
      dsimp only
      split
      · rename_i u ws deadline hwritten
        rw [hwritten] at hw
        dsimp only
        split
        · rename_i hphase
          rcases hw with ⟨-, htables⟩ | ⟨hne, -⟩
          · have hfixed := fixed_writing { s with queue := rest } (.drain deadline) o
            rw [hwritten] at hfixed
            exact .of_finish htables hfixed.sessionId
          · exact absurd hphase hne
        · exact hw
      · exact hw
  | drainQueued hrun =>
      refine .inl ?_
      unfold trySend
      split_ifs <;> exact ⟨hrun, rfl⟩

/-- The ceiling of `register_service`. -/
def capacity (s : Server) : Nat :=
  min s.bindPolicy.maxServicesPerSession s.policy.limits.servicesPerSession

/-- An acceptance, with everything it found and entered. -/
theorem tables_of_accepted {register : RegisterService} {os : BindOutcome} {bind : EffectiveBind}
    (h : s.registerService register os = (t, .accepted bind)) :
    s.services.size < s.capacity ∧ s.services.lookup register.serviceId = none ∧
    register.name ∉ s.names ∧
    t.tables = ⟨s.services.insert register.serviceId register.name, register.name :: s.names,
      s.counters.binds ++ [⟨s.sessionId, register.serviceId, bind⟩],
      fetchAdd s.counters.services 1, s.counters.sessions⟩ := by
  have haccepted := accepted_of_registerService h
  obtain rfl := haccepted.result
  exact ⟨haccepted.room, haccepted.free, haccepted.new, rfl⟩

/-- A branch leaves the tables, enters one Service, or removes one. -/
theorem edited_cases (s : Server) (e : ServerEvent) :
    s.edited e = s ∨
    (∃ register os o bind, e = .incoming (.registerService register) os o ∧
      s.registerService register os = (s.edited e, .accepted bind)) ∨
    (∃ unregister os o name, e = .incoming (.unregisterService unregister) os o ∧
      s.services.lookup unregister.serviceId = some name ∧
      s.edited e = s.unregisterService unregister.serviceId) := by
  unfold edited
  split
  · rename_i register os o
    rcases hr : s.registerService register os with ⟨u, bind | code⟩
    · exact .inr (.inl ⟨register, os, o, bind, rfl, hr⟩)
    · exact .inl (registerService_refused hr)
  · rename_i unregister os o
    rcases hname : s.services.lookup unregister.serviceId with - | name
    · refine .inl ?_
      unfold unregisterService
      rw [hname]
    · exact .inr (.inr ⟨unregister, os, o, name, rfl, hname, rfl⟩)
  · exact .inl rfl

theorem tables_of_removed {id : ServiceId} {name : ServiceName}
    (h : s.services.lookup id = some name) :
    (s.unregisterService id).tables = ⟨s.services.erase id, s.names.erase name,
      s.counters.binds.filter (fun b => b.session ≠ s.sessionId || b.service ≠ id),
      fetchSub s.counters.services 1, s.counters.sessions⟩ := by
  unfold unregisterService
  rw [h]
  rfl

/-- The names are those of the Services, each of one Service, and there are not
too many. -/
structure Named (s : Server) : Prop where
  nodup : s.names.Nodup
  perm : s.names.Perm s.services.values
  size : s.services.size ≤ s.capacity

theorem Named.of_tables (hs : Named s) (h : t.tables = s.tables) (hcapacity : t.capacity = s.capacity) :
    Named t := by
  obtain ⟨hservices, hnames, -⟩ := Tables.mk.inj h
  exact ⟨hnames ▸ hs.nodup, hnames ▸ hservices ▸ hs.perm, hcapacity ▸ hservices ▸ hs.size⟩

theorem fixed_edited (s : Server) (e : ServerEvent) : Fixed s (s.edited e) := by
  unfold edited
  split
  · exact fixed_registerService s _ _
  · exact fixed_unregisterService s _
  · exact .refl s

theorem Fixed.capacity (h : Fixed s t) : t.capacity = s.capacity := by
  rw [Server.capacity, h.bindPolicy, h.policy]
  rfl

/-- An edit adds at most one bind, and no Session. -/
theorem binds_edited (s : Server) (e : ServerEvent) :
    (s.edited e).counters.binds.length ≤ s.counters.binds.length + 1 ∧
      (s.edited e).counters.sessions = s.counters.sessions := by
  rcases s.edited_cases e with heq | ⟨register, os, o, bind, -, hr⟩ |
    ⟨unregister, os, o, name, -, hname, heq⟩
  · rw [heq]
    exact ⟨Nat.le_succ _, rfl⟩
  · obtain ⟨-, -, hbinds, -, hsessions⟩ := Tables.mk.inj (tables_of_accepted hr).2.2.2
    rw [hbinds, List.length_append]
    exact ⟨le_rfl, hsessions⟩
  · obtain ⟨-, -, hbinds, -, hsessions⟩ := Tables.mk.inj (tables_of_removed hname)
    rw [heq, hbinds]
    exact ⟨(List.length_filter_le _ _).trans (Nat.le_succ _), hsessions⟩

theorem Named.edited (hs : Named s) (e : ServerEvent) : Named (s.edited e) := by
  have hcapacity := (s.fixed_edited e).capacity
  rcases s.edited_cases e with heq | ⟨register, os, o, bind, -, hr⟩ | ⟨unregister, os, o, name, -, hname, heq⟩
  · rw [heq]
    exact hs
  · obtain ⟨hroom, hfree, hnew, htables⟩ := tables_of_accepted hr
    obtain ⟨hservices, hnames, -⟩ := Tables.mk.inj htables
    have herase : s.services.erase register.serviceId = s.services := Table.erase_eq_self hfree
    refine ⟨?_, ?_, ?_⟩
    · rw [hnames]
      exact List.nodup_cons.mpr ⟨hnew, hs.nodup⟩
    · rw [hnames, hservices, Table.values_insert, herase]
      exact hs.perm.cons _
    · rw [hcapacity, hservices, Table.size_insert, herase]
      exact hroom
  · obtain ⟨hservices, hnames, -⟩ := Tables.mk.inj (tables_of_removed hname)
    rw [heq] at hcapacity ⊢
    have hvalues := hs.perm.trans (Table.values_perm_erase hname)
    refine ⟨?_, ?_, ?_⟩
    · rw [hnames]
      exact hs.nodup.erase name
    · rw [hnames, hservices]
      have herase := hvalues.erase name
      rwa [List.erase_cons_head] at herase
    · rw [hcapacity, hservices]
      have hsize := Table.size_erase hname
      have hbound := hs.size
      omega

/-- The bind table as an index of Sessions and Services. -/
def index (binds : BindTable) : List (SessionId × ServiceId) :=
  binds.map fun b => (b.session, b.service)

@[simp] theorem length_index (binds : BindTable) : (index binds).length = binds.length :=
  List.length_map _

theorem index_append (binds : BindTable) (id : SessionId) (service : ServiceId)
    (bind : EffectiveBind) :
    index (binds ++ [⟨id, service, bind⟩]) = index binds ++ [(id, service)] := by
  simp [index]

theorem index_remove (binds : BindTable) (id : SessionId) (service : ServiceId) :
    index (binds.filter fun b => b.session ≠ id || b.service ≠ service)
      = (index binds).filter fun b => b.1 ≠ id || b.2 ≠ service := by
  rw [index, index, List.filter_map]
  rfl

theorem index_leave (binds : BindTable) (id : SessionId) :
    index (binds.filter (·.session ≠ id)) = (index binds).filter (·.1 ≠ id) := by
  rw [index, index, List.filter_map]
  rfl

/-- The bind table and its counter fit what the Sessions have registered. -/
structure Filed (c : Counters) (keys : SessionId → List ServiceId) : Prop where
  indexed : Indexes (index c.binds) keys
  gauge : c.services = c.binds.length

variable {keys : SessionId → List ServiceId}

theorem Filed.congr {c c' : Counters} (hs : Filed c keys) (hbinds : c'.binds = c.binds)
    (hservices : c'.services = c.services) : Filed c' keys :=
  ⟨hbinds ▸ hs.indexed, hbinds ▸ hservices ▸ hs.gauge⟩

/-- An edit keeps the bind table and the counter in step with the map. -/
theorem Filed.edited (hs : Filed s.counters keys) (hkeys : keys s.sessionId = s.services.keys)
    (hword : s.counters.binds.length + 1 < usizeValues) (e : ServerEvent) :
    Filed (s.edited e).counters
      (Function.update keys s.sessionId (s.edited e).services.keys) := by
  rcases s.edited_cases e with heq | ⟨register, os, o, bind, -, hr⟩ | ⟨unregister, os, o, name, -, hname, heq⟩
  · rw [heq, ← hkeys, Function.update_eq_self]
    exact hs
  · obtain ⟨-, hfree, -, htables⟩ := tables_of_accepted hr
    obtain ⟨hservices, -, hbinds, hgauge, -⟩ := Tables.mk.inj htables
    have hnotMem : register.serviceId ∉ keys s.sessionId := by
      rw [hkeys]
      exact AList.lookup_eq_none.mp hfree
    have hinsert : (s.edited e).services.keys = register.serviceId :: keys s.sessionId := by
      rw [hservices, AList.keys_insert, hkeys, List.erase_of_not_mem (AList.lookup_eq_none.mp hfree)]
    refine ⟨?_, ?_⟩
    · rw [hbinds, index_append, hinsert]
      exact hs.indexed.enter hnotMem
    · rw [hgauge, hbinds, hs.gauge, fetchAdd_of_lt hword, List.length_append]
      rfl
  · obtain ⟨hservices, -, hbinds, hgauge, -⟩ := Tables.mk.inj (tables_of_removed hname)
    rw [heq]
    have hmem : unregister.serviceId ∈ keys s.sessionId := by
      rw [hkeys, ← AList.mem_keys, ← AList.lookup_isSome, hname]
      rfl
    have hlength := hs.indexed.length_remove hmem
    refine ⟨?_, ?_⟩
    · rw [hbinds, index_remove, hservices, AList.keys_erase, ← hkeys]
      exact hs.indexed.remove _ _
    · rw [← index_remove, length_index, length_index] at hlength
      rw [hgauge, hbinds, hs.gauge, fetchSub_of_le (by omega) (by omega)]
      omega

/-- The guard takes out what its Session had, and as many off the counter. -/
theorem Filed.dropGuard (hs : Filed s.counters keys)
    (hword : s.counters.binds.length < usizeValues) :
    Filed s.dropGuard.counters (Function.update keys s.sessionId []) := by
  have hlength := hs.indexed.length_leave s.sessionId
  rw [← index_leave, length_index, length_index] at hlength
  refine ⟨?_, ?_⟩
  · show Indexes (index (s.counters.binds.filter (·.session ≠ s.sessionId))) _
    rw [index_leave]
    exact hs.indexed.leave _
  · show fetchSub s.counters.services (s.counters.binds.length
        - (s.counters.binds.filter (·.session ≠ s.sessionId)).length)
      = (s.counters.binds.filter (·.session ≠ s.sessionId)).length
    rw [hs.gauge, fetchSub_of_le hword (Nat.sub_le _ _)]
    omega

end Server

/-! ### All Sessions -/

namespace Hub

open Server (Filed Named)

variable {s t u : Hub} {c : HubConfig} {k : ContextId} {session session' : ServerSession}

/-- The Services that a Session has registered, by the id of the Session. -/
def serviceKeys (s : Hub) (id : SessionId) : List ServiceId :=
  ((s.registry.lookup id).bind s.sessions.lookup).elim [] (·.server.services.keys)

/-- What the locals of a control loop satisfy while it runs. -/
structure Tidy (c : HubConfig) (session : ServerSession) : Prop where
  policy : session.server.policy = c.policy
  bindPolicy : session.server.bindPolicy = c.bindPolicy
  named : session.server.phase = .running → session.server.Named
  tokens : session.server.phase = .running → ∀ id,
    (session.tokens.lookup id).isSome = (session.server.services.lookup id).isSome

/-- A branch edits the tokens as it edits the Services. -/
theorem tokens_branch (s : Hub) (k : ContextId) (session : ServerSession) (e : ServerEvent)
    (h : ∀ id, (session.tokens.lookup id).isSome = (session.server.services.lookup id).isSome)
    (id : ServiceId) :
    ((s.branch k session e).2.tokens.lookup id).isSome
      = (((s.lent session).edited e).services.lookup id).isSome := by
  unfold branch Server.edited
  split
  · rename_i register os o
    rcases hr : (s.lent session).registerService register os with ⟨v, bind | code⟩
    · obtain ⟨-, -, -, htables⟩ := Server.tables_of_accepted hr
      have hservices : v.services
          = session.server.services.insert register.serviceId register.name :=
        congrArg Server.Tables.services htables
      dsimp only
      rw [hr, hservices, Table.lookup_insert_eq, Table.lookup_insert_eq]
      split_ifs
      · rfl
      · exact h id
    · dsimp only
      rw [hr, Server.registerService_refused hr]
      exact h id
  · rename_i unregister os o
    rw [Server.lookup_unregisterService]
    rcases htoken : session.tokens.lookup unregister.serviceId with - | r
    · dsimp only
      split_ifs with hid
      · rw [hid, htoken]
        rfl
      · exact h id
    · dsimp only
      rw [Table.lookup_erase_eq]
      split_ifs
      · rfl
      · exact h id
  · exact h id
  · rename_i hregister hunregister _
    dsimp only
    split
    · exact absurd rfl (hregister _ _ _)
    · exact absurd rfl (hunregister _ _ _)
    · exact h id

/-- **Every Session that runs is tidy.** -/
theorem Tidy.move {e : HubEvent} (hpolicy : s.policy = c.policy)
    (hbindPolicy : s.bindPolicy = c.bindPolicy)
    (hs : ∀ k session, s.sessions.lookup k = some session → Tidy c session)
    (h : SessionMove s k session' e) : Tidy c session' := by
  cases h with
  | still session hk hsame =>
      have htidy := hs k session hk
      have hcapacity := hsame.server.capacity
      refine ⟨hsame.server.policy.trans htidy.policy, hsame.server.bindPolicy.trans htidy.bindPolicy,
        fun hrun => ?_, fun hrun id => ?_⟩
      · have hnamed := htidy.named (hsame.phase ▸ hrun)
        exact ⟨hsame.names ▸ hnamed.nodup, hsame.names ▸ hsame.services ▸ hnamed.perm,
          hcapacity ▸ hsame.services ▸ hnamed.size⟩
      · rw [hsame.tokens, hsame.services]
        exact htidy.tokens (hsame.phase ▸ hrun) id
  | begun id principal negotiated hnext hfresh =>
      rw [hfresh]
      exact ⟨hpolicy, hbindPolicy, fun _ => ⟨.nil, .refl _, Nat.zero_le _⟩, fun _ _ => rfl⟩
  | greeted o session hk hbefore hrun hdone hafter =>
      rw [hafter]
      have htidy := hs k session hk
      exact ⟨htidy.policy, htidy.bindPolicy, htidy.named, htidy.tokens⟩
  | unreached o session error hk hbefore hrun hafter =>
      rw [hafter]
      have htidy := hs k session hk
      exact ⟨htidy.policy, htidy.bindPolicy, fun h => absurd h (Server.finish_ne_running _ _),
        fun h => absurd h (Server.finish_ne_running _ _)⟩
  | moved e session server writes pending hk hgreeted hbranch hstep hafter =>
      rw [hafter]
      have htidy := hs k session hk
      have hrun : (s.lent session).phase = .running := Server.running_of_branch hbranch hstep
      have hfixed := (s.fixed_lent session).trans (Server.fixed_step hstep)
      have hnamed : (s.lent session).Named :=
        ⟨(htidy.named hrun).nodup, (htidy.named hrun).perm, (htidy.named hrun).size⟩
      refine ⟨hfixed.policy.trans htidy.policy, hfixed.bindPolicy.trans htidy.bindPolicy,
        fun hrunning => ?_, fun hrunning id => ?_⟩
      · rcases Server.step_edited hbranch hstep with ⟨-, htables⟩ | ⟨hne, -⟩
        · refine (hnamed.edited e).of_tables htables ?_
          exact (Server.fixed_step hstep).capacity.trans (Server.fixed_edited _ e).capacity.symm
        · exact absurd hrunning hne
      · rcases Server.step_edited hbranch hstep with ⟨-, htables⟩ | ⟨hne, -⟩
        · have hservices : server.services = ((s.lent session).edited e).services :=
            congrArg Server.Tables.services htables
          dsimp only
          rw [hservices]
          exact s.tokens_branch k session e (htidy.tokens hrun) id
        · exact absurd hrunning hne

/-! #### The shared tables -/

theorem serviceKeys_of_live (hs : Registered s) (hk : s.sessions.lookup k = some session)
    (hrun : session.server.phase = .running) :
    s.serviceKeys session.server.sessionId = session.server.services.keys := by
  rw [serviceKeys, hs.live k session hk hrun, Option.bind_some, hk]
  rfl

theorem registry_of_mem_serviceKeys {id : SessionId} {service : ServiceId}
    (hmem : service ∈ s.serviceKeys id) : ∃ k, s.registry.lookup id = some k := by
  rcases hreg : s.registry.lookup id with - | k
  · rw [serviceKeys, hreg] at hmem
    cases hmem
  · exact ⟨k, rfl⟩

/-- The id of a Session in the registry is that of the Session that runs. -/
theorem Registered.eq_of_lookup (hs : Registered s) (hk : s.sessions.lookup k = some session)
    {id : SessionId} (hreg : s.registry.lookup id = some k) : session.server.sessionId = id := by
  obtain ⟨other, hother, hid, -⟩ := hs.running id k hreg
  rwa [Option.some.inj (hk.symm.trans hother)]

/-- A Session is put back. -/
theorem serviceKeys_of_put (hs : Registered s) (hk : s.sessions.lookup k = some session)
    (hrun : session.server.phase = .running) (hsessions : t.sessions = s.sessions.insert k session')
    (hregistry : t.registry = s.registry) :
    t.serviceKeys
      = Function.update s.serviceKeys session.server.sessionId session'.server.services.keys := by
  funext id
  rcases eq_or_ne id session.server.sessionId with rfl | hne
  · rw [Function.update_self, serviceKeys, hregistry, hs.live k session hk hrun, Option.bind_some,
      hsessions, AList.lookup_insert]
    rfl
  · rw [Function.update_of_ne hne, serviceKeys, serviceKeys, hregistry]
    rcases hreg : s.registry.lookup id with - | a
    · rfl
    · have hak : a ≠ k := by
        rintro rfl
        exact hne (hs.eq_of_lookup hk hreg).symm
      rw [Option.bind_some, Option.bind_some, hsessions, AList.lookup_insert_ne hak]

theorem serviceKeys_of_kept (hs : Registered s) (hk : s.sessions.lookup k = some session)
    (hrun : session.server.phase = .running) (hsessions : t.sessions = s.sessions.insert k session')
    (hregistry : t.registry = s.registry)
    (hservices : session'.server.services = session.server.services) :
    t.serviceKeys = s.serviceKeys := by
  rw [serviceKeys_of_put hs hk hrun hsessions hregistry, hservices, ← serviceKeys_of_live hs hk hrun,
    Function.update_eq_self]

/-- A Session begins, with nothing registered yet. -/
theorem serviceKeys_of_begun (hs : Registered s) (hnumbered : Numbered s) {id : SessionId}
    (hfree : s.registry.lookup id = none)
    (hsessions : t.sessions = s.sessions.insert s.next session')
    (hempty : session'.server.services = ∅) (hregistry : t.registry = s.registry.insert id s.next) :
    t.serviceKeys = s.serviceKeys := by
  funext a
  rw [serviceKeys, hregistry, Table.lookup_insert_eq, hsessions]
  split_ifs with hid
  · rw [Option.bind_some, AList.lookup_insert, serviceKeys, hid, hfree]
    exact congrArg AList.keys hempty
  · rw [serviceKeys]
    rcases hreg : s.registry.lookup a with - | k
    · rfl
    · obtain ⟨session, hk, -⟩ := hs.running a k hreg
      rw [Option.bind_some, Option.bind_some, AList.lookup_insert_ne (hnumbered k session hk).ne]

/-- A Session ends. -/
theorem serviceKeys_of_ended (hs : Registered s) (hk : s.sessions.lookup k = some session)
    (hsessions : t.sessions = s.sessions.insert k session')
    (hregistry : t.registry = s.registry.erase session.server.sessionId) :
    t.serviceKeys = Function.update s.serviceKeys session.server.sessionId [] := by
  funext id
  rw [serviceKeys, hregistry, Table.lookup_erase_eq]
  rcases eq_or_ne id session.server.sessionId with rfl | hne
  · rw [if_pos rfl, Function.update_self]
    rfl
  · rw [if_neg hne, Function.update_of_ne hne, serviceKeys]
    rcases hreg : s.registry.lookup id with - | a
    · rfl
    · have hak : a ≠ k := by
        rintro rfl
        exact hne (hs.eq_of_lookup hk hreg).symm
      rw [Option.bind_some, Option.bind_some, hsessions, AList.lookup_insert_ne hak]

theorem serviceKeys_of_aside (hs : Registered s) (h : Aside s t) : t.serviceKeys = s.serviceKeys := by
  funext id
  rw [serviceKeys, serviceKeys, h.registry]
  rcases hreg : s.registry.lookup id with - | a
  · rfl
  · obtain ⟨session, hk, -⟩ := hs.running id a hreg
    obtain ⟨session', hk', hsame⟩ := h.forward hk
    rw [Option.bind_some, Option.bind_some, hk, hk']
    exact congrArg AList.keys hsame.services

/-- The bind table and the two counters fit the live Sessions. -/
structure Shared (c : HubConfig) (s : Hub) : Prop where
  filed : Filed s.counters s.serviceKeys
  guards : s.counters.sessions = s.registry.size
  limit : s.registry.size ≤ c.policy.limits.sessions

theorem Shared.of_eq (hs : Shared c s) (hkeys : t.serviceKeys = s.serviceKeys)
    (hbinds : t.counters.binds = s.counters.binds)
    (hservices : t.counters.services = s.counters.services)
    (hsessions : t.counters.sessions = s.counters.sessions)
    (hregistry : t.registry = s.registry) : Shared c t where
  filed := hkeys ▸ hs.filed.congr hbinds hservices
  guards := hsessions.trans (hs.guards.trans (congrArg Table.size hregistry.symm))
  limit := hregistry ▸ hs.limit

/-- What holds throughout a run in which no two live Sessions have one id. -/
structure Tabled (c : HubConfig) (s : Hub) : Prop where
  policy : s.policy = c.policy
  bindPolicy : s.bindPolicy = c.bindPolicy
  numbered : Numbered s
  registered : Registered s
  tidy : ∀ k session, s.sessions.lookup k = some session → Tidy c session
  shared : Shared c s

/-- The configured limits have passed their check. -/
theorem limits_range (c : HubConfig) :
    c.policy.limits.sessions ≤ 65536 ∧ c.policy.limits.servicesPerSession ≤ 65536 := by
  have hrange := ResourceLimits.range_of_validate (RuntimePolicy.limits_of_validate c.policyValid)
  exact ⟨(hrange _ (by simp)).2, (hrange _ (by simp)).2⟩

/-- The validated limits keep the counters far from the word size. -/
theorem Tabled.word (hs : Tabled c s) : s.counters.binds.length + 1 < usizeValues := by
  obtain ⟨hsessions, hservices⟩ := limits_range c
  have hlength := hs.shared.filed.indexed.length_le s.registry.keys 65536 ?_ ?_
  · have hkeys : s.registry.keys.length ≤ 65536 := by
      have hsize : s.registry.keys.length = s.registry.size := List.length_map _
      have hlimit := hs.shared.limit
      omega
    rw [Server.length_index] at hlength
    have hproduct : 65536 * s.registry.keys.length ≤ 65536 * 65536 := Nat.mul_le_mul_left _ hkeys
    show s.counters.binds.length + 1 < 2 ^ 64
    omega
  · intro id service hmem
    obtain ⟨a, hreg⟩ := registry_of_mem_serviceKeys hmem
    rw [← AList.mem_keys, ← AList.lookup_isSome, hreg]
    rfl
  · intro id
    rcases hreg : s.registry.lookup id with - | a
    · rw [serviceKeys, hreg]
      exact Nat.zero_le _
    · obtain ⟨session, hk, rfl, hrun⟩ := hs.registered.running id a hreg
      rw [serviceKeys_of_live hs.registered hk hrun]
      have hsize : session.server.services.keys.length = session.server.services.size :=
        List.length_map _
      have hbound := ((hs.tidy a session hk).named hrun).size
      rw [Server.capacity, (hs.tidy a session hk).policy] at hbound
      omega

/-- The end of a branch, with the tables as the branch has edited them. -/
theorem Tabled.conclude (hs : Tabled c s) {b : Bool} (edited : Server) {v : Hub}
    (hk : s.sessions.lookup k = some session) (hrun : session.server.phase = .running)
    (hid : session'.server.sessionId = session.server.sessionId)
    (hedited : edited.sessionId = session.server.sessionId)
    (hfiled : Filed edited.counters
      (Function.update s.serviceKeys session.server.sessionId edited.services.keys))
    (hword : edited.counters.binds.length < usizeValues)
    (hgauge : edited.counters.sessions = s.counters.sessions)
    (hends : edited.Ends session'.server) (hcounters : v.counters = session'.server.counters)
    (hsessions : v.sessions = s.sessions) (hregistry : v.registry = s.registry) :
    Shared c (v.conclude k session' b) := by
  have hreg := hs.registered.live k session hk hrun
  obtain ⟨r, -, heq⟩ := v.conclude_frame k session' b
  have hput : (v.conclude k session' b).sessions
      = s.sessions.insert k { session' with pending := r.1 } := by rw [heq, ← hsessions]
  have hcount : (v.conclude k session' b).counters = session'.server.counters := by
    rw [heq, ← hcounters]
  have hregistry' := v.registry_conclude k session' b
  rcases hends with ⟨hrun', htables⟩ | ⟨hended, htables⟩
  · obtain ⟨hservices, -, hbinds, hserviceGauge, hsessionGauge⟩ := Server.Tables.mk.inj htables
    rw [if_pos hrun', hregistry] at hregistry'
    refine ⟨?_, ?_, hregistry' ▸ hs.shared.limit⟩
    · rw [hcount, serviceKeys_of_put hs.registered hk hrun hput hregistry']
      dsimp only
      rw [hservices]
      exact hfiled.congr hbinds hserviceGauge
    · rw [hcount, hsessionGauge, hgauge, hregistry']
      exact hs.shared.guards
  · obtain ⟨-, -, hbinds, hserviceGauge, hsessionGauge⟩ := Server.Tables.mk.inj htables
    rw [if_neg hended, hregistry, hid] at hregistry'
    have hsize := Table.size_erase hreg
    have hguards := hs.shared.guards
    have hlimit := hs.shared.limit
    have hmax := (limits_range c).1
    refine ⟨?_, ?_, ?_⟩
    · have hdropped := hfiled.dropGuard hword
      rw [hedited, Function.update_idem] at hdropped
      rw [hcount, serviceKeys_of_ended hs.registered hk hput hregistry']
      exact hdropped.congr hbinds hserviceGauge
    · have hsub : fetchSub edited.counters.sessions 1 = s.registry.size - 1 := by
        rw [hgauge, hguards, fetchSub_of_le _ (by omega)]
        show s.registry.size < 2 ^ 64
        omega
      rw [hcount, hsessionGauge, hregistry']
      exact hsub.trans (by omega)
    · rw [hregistry']
      omega

/-- **One step keeps the tables consistent.** -/
theorem Tabled.step {e : HubEvent} (hs : Tabled c s) (hunused : s.unused e = true)
    (h : s.step e = some t) : Tabled c t := by
  have hsteady := steady_step h
  have hmoves (k : ContextId) (session' : ServerSession) (hk' : t.sessions.lookup k = some session') :
      Tidy c session' := .move hs.policy hs.bindPolicy hs.tidy (sessionMove_of_step h hk')
  refine ⟨hsteady.policy.trans hs.policy, hsteady.bindPolicy.trans hs.bindPolicy,
    hs.numbered.step h, hs.registered.step hs.numbered hunused h, hmoves, ?_⟩
  have hword := hs.word
  cases hsessions : e.isSessions with
  | false =>
    have haside := aside_step hsessions h
    exact hs.shared.of_eq (serviceKeys_of_aside hs.registered haside) haside.binds
      haside.serviceGauge haside.sessionGauge haside.registry
  | true =>
    have hdid := did_of_step h
    cases e with
    | connect id principal negotiated =>
        obtain rfl := hdid
        have hfree : s.registry.lookup id = none := by simpa [Hub.unused] using hunused
        have hguards := hs.shared.guards
        have hmax := (limits_range c).1
        unfold Hub.connect
        rw [hs.registered.retain]
        dsimp only
        split_ifs with hfull
        · exact hs.shared.of_eq rfl rfl rfl rfl rfl
        · rw [hs.policy] at hfull
          have hsize : Table.size (s.registry.insert id s.next) = s.registry.size + 1 := by
            rw [Table.size_insert, Table.erase_eq_self hfree]
          refine ⟨?_, ?_, ?_⟩
          · rw [serviceKeys_of_begun hs.registered hs.numbered hfree rfl rfl rfl]
            exact hs.shared.filed.congr rfl rfl
          · show fetchAdd s.counters.sessions 1 = Table.size (s.registry.insert id s.next)
            rw [hguards, hsize, fetchAdd_of_lt]
            show s.registry.size + 1 < 2 ^ 64
            omega
          · show Table.size (s.registry.insert id s.next) ≤ _
            omega
    | greet k o =>
        obtain ⟨session, hk, -, hrun, rfl⟩ := hdid
        have hkeys := serviceKeys_of_live hs.registered hk hrun
        unfold Hub.greet
        dsimp only
        split
        · refine hs.shared.of_eq ?_ rfl rfl rfl rfl
          exact serviceKeys_of_kept hs.registered hk hrun rfl rfl rfl
        · rename_i error _
          refine hs.conclude (s.lent session) hk hrun rfl rfl ?_ (Nat.lt_of_succ_lt hword) rfl
            (.of_finish rfl rfl) rfl rfl rfl
          rw [show (s.lent session).services.keys = s.serviceKeys session.server.sessionId from
            hkeys.symm, Function.update_eq_self]
          exact hs.shared.filed
    | control k e =>
        obtain ⟨session, server, writes, hk, -, he, hstep, rfl⟩ := hdid
        have hrun : (s.lent session).phase = .running := Server.running_of_branch he hstep
        have hframe := (s.branch_frame k session e).1
        obtain ⟨hlength, hgauge⟩ := (s.lent session).binds_edited e
        have hfiled : Filed (s.lent session).counters s.serviceKeys := hs.shared.filed
        refine hs.conclude ((s.lent session).edited e) hk hrun ?_ ?_ ?_ (hlength.trans_lt hword)
          hgauge (Server.step_edited he hstep) rfl ?_ ?_
        · exact (Server.fixed_step hstep).sessionId
        · exact ((s.lent session).fixed_edited e).sessionId
        · exact hfiled.edited (serviceKeys_of_live hs.registered hk hrun) hword e
        · rw [hframe]
        · rw [hframe]
    | contextDropped k =>
        obtain ⟨session, hk, hheld, rfl⟩ := hdid
        refine hs.shared.of_eq ?_ rfl rfl rfl rfl
        funext id
        dsimp only [serviceKeys, Hub.contextDropped]
        rcases hreg : s.registry.lookup id with - | a
        · rfl
        · -- a Session in the registry runs, so its context is held
          obtain ⟨other, ha, -, hphase⟩ := hs.registered.running id a hreg
          have hak : a ≠ k := by
            rintro rfl
            simp [held, ha, hphase] at hheld
          rw [Option.bind_some, Option.bind_some, AList.lookup_erase_ne hak]
    | _ => cases hsessions

theorem Tabled.init (c : HubConfig) : Tabled c (init c) where
  policy := rfl
  bindPolicy := rfl
  numbered := Numbered.init c
  registered := Registered.init c
  tidy _ _ hk := by cases hk
  shared := ⟨⟨.nil, rfl⟩, rfl, Nat.zero_le _⟩

/-- The contexts whose control loop holds a `SessionGuard`. -/
def liveGuards (s : Hub) : List ContextId :=
  (s.sessions.entries.filter (·.2.server.phase = .running)).map (·.1)

/-- The registry has an entry for each of them. -/
theorem Registered.length_liveGuards (hs : Registered s) :
    s.liveGuards.length = s.registry.size := by
  have hmem (k : ContextId) : k ∈ s.liveGuards ↔ k ∈ s.registry.values := by
    rw [Table.mem_values, liveGuards, List.mem_map]
    constructor
    · rintro ⟨⟨a, session⟩, hmem, rfl⟩
      obtain ⟨hmem, hrun⟩ := List.mem_filter.mp hmem
      exact ⟨_, hs.live a session (Table.lookup_eq_some_iff.mpr hmem) (by simpa using hrun)⟩
    · rintro ⟨id, hreg⟩
      obtain ⟨session, hk, -, hrun⟩ := hs.running id k hreg
      exact ⟨⟨k, session⟩, List.mem_filter.mpr ⟨Table.lookup_eq_some_iff.mp hk, by simpa using hrun⟩,
        rfl⟩
  have hguards : s.liveGuards.Nodup := s.sessions.nodupKeys.sublist List.filter_sublist
  -- the id under which a context is registered is its own
  have hvalues : s.registry.values.Nodup := by
    refine List.Nodup.map_on ?_ (List.NodupKeys.nodup s.registry.nodupKeys)
    rintro ⟨id, k⟩ hmem ⟨id', k'⟩ hmem' hkk
    obtain rfl : k = k' := hkk
    obtain ⟨session, hk, rfl, -⟩ := hs.running id k (Table.lookup_eq_some_iff.mpr hmem)
    rw [hs.eq_of_lookup hk (Table.lookup_eq_some_iff.mpr hmem')]
  rw [((List.perm_ext_iff_of_nodup hguards hvalues).mpr hmem).length_eq]
  exact List.length_map _

/-! ### Answers -/

/-- The frame answers a registration. -/
def isAnswer : Message → Bool
  | .registerAck _ | .registerReject _ | .error _ => true
  | _ => false

/-- The answers among the frames written, in order. -/
def answers (written : List Write) : List Message := (written.map (·.1)).filter isAnswer

theorem answers_append (written writes : List Write) :
    answers (written ++ writes) = answers written ++ answers writes := by
  simp [answers]

theorem isAnswer_response (negotiated : Capabilities) (id : ServiceId) (v : Verdict) :
    isAnswer (Server.response negotiated id v) = true := by
  cases v with
  | accepted bind => rfl
  | refused code =>
      unfold Server.response
      dsimp only
      split_ifs <;> rfl

theorem isAnswer_notice {m : Message} (h : m.isNotice = true) : isAnswer m = false := by
  cases m <;> first | rfl | cases h

/-- One answer for each registration served, in order; a write that did not
complete was the last. -/
structure Answered (session : ServerSession) : Prop where
  answers : answers session.written = session.served.map fun r =>
    Server.response session.server.negotiated r.1.serviceId r.2
  queue : ∀ m ∈ session.server.queue, m.isNotice = true
  writes : ∀ w ∈ session.written.dropLast, w.2 = .done
  running : session.server.phase = .running → ∀ w ∈ session.written, w.2 = .done

/-- What a branch serves and answers. -/
theorem answers_step {server : Server} {writes : List Write} {e : ServerEvent}
    (hqueue : ∀ m ∈ (s.lent session).queue, m.isNotice = true)
    (hstep : (s.lent session).step e = some (server, writes)) :
    (∀ m ∈ server.queue, m.isNotice = true) ∧
    ∃ new, (s.branch k session e).2.served = session.served ++ new ∧
      answers writes = new.map fun r =>
        Server.response session.server.negotiated r.1.serviceId r.2 := by
  cases hown : e.isOwn with
  | true =>
    have hserved : (s.branch k session e).2.served = session.served ++ [] := by
      rw [List.append_nil]
      cases e with
      | incoming m os o => cases hown
      | _ => rfl
    obtain ⟨hkept, hwrites⟩ := Server.step_own hown hqueue hstep
    refine ⟨fun m hm => (hkept.queue m hm).elim (hqueue m) id, [], hserved, ?_⟩
    rcases hwrites with rfl | ⟨m, o, -, rfl, hm⟩
    · rfl
    · simp [answers, isAnswer_notice hm]
  | false =>
    cases e with
    | incoming m os o =>
      obtain ⟨-, ⟨register, u, v, rfl, hr, rfl, ht⟩ | ⟨unregister, rfl, rfl, rfl⟩ |
        ⟨hreg, hunreg, hkept, hwrites⟩⟩ := Server.step_incoming hstep
      · have huqueue : u.queue = session.server.queue := (Server.registerService_frame hr).2.2.1
        refine ⟨?_, [(register, v)], ?_, ?_⟩
        · rcases ht with ⟨-, rfl⟩ | ⟨-, error, rfl⟩
          · rw [huqueue]
            exact hqueue
          · show ∀ m ∈ u.queue, _
            rw [huqueue]
            exact hqueue
        · unfold branch
          dsimp only
          rw [hr]
          cases v <;> rfl
        · simp [answers, isAnswer_response]
          rfl
      · refine ⟨?_, [], ?_, rfl⟩
        · rw [(Server.unregisterService_frame _ _).2.2.1]
          exact hqueue
        · unfold branch
          dsimp only
          rw [List.append_nil]
          split <;> rfl
      · refine ⟨fun m hm => (hkept.queue m hm).elim (hqueue m) id, [], ?_, ?_⟩
        · rw [List.append_nil]
          cases m with
          | registerService register => exact absurd rfl (hreg register)
          | unregisterService unregister => exact absurd rfl (hunreg unregister)
          | _ => rfl
        · rcases hwrites with rfl | ⟨pong, rfl⟩
          · rfl
          · rfl
    | _ => cases hown

/-- **Every Session has answered what it has served.** -/
theorem Answered.move {e : HubEvent}
    (hs : ∀ k session, s.sessions.lookup k = some session → Answered session)
    (h : SessionMove s k session' e) : Answered session' := by
  cases h with
  | still session hk hsame =>
      have hold := hs k session hk
      refine ⟨?_, fun m hm => (hsame.queue m hm).elim (hold.queue m) id, ?_, fun hrun => ?_⟩
      · rw [hsame.written, hsame.served, hsame.server.negotiated]
        exact hold.answers
      · rw [hsame.written]
        exact hold.writes
      · rw [hsame.written]
        exact hold.running (hsame.phase ▸ hrun)
  | begun id principal negotiated hnext hfresh =>
      rw [hfresh]
      constructor <;> simp [Hub.answers, newServer]
  | greeted o session hk hbefore hrun hdone hafter =>
      have hold := hs k session hk
      have hwritten := hold.running hrun
      rw [hafter]
      refine ⟨?_, hold.queue, ?_, fun _ => ?_⟩
      · rw [answers_append, hold.answers]
        exact List.append_nil _
      · rw [List.dropLast_concat]
        exact hwritten
      · intro w hw
        rcases List.mem_append.mp hw with hw | hw
        · exact hwritten w hw
        · rw [List.mem_singleton.mp hw]
          exact hdone
  | unreached o session error hk hbefore hrun hafter =>
      have hold := hs k session hk
      rw [hafter]
      refine ⟨?_, hold.queue, ?_, fun h => absurd h (Server.finish_ne_running _ _)⟩
      · rw [answers_append, hold.answers]
        exact List.append_nil _
      · rw [List.dropLast_concat]
        exact hold.running hrun
  | moved e session server writes pending hk hgreeted hbranch hstep hafter =>
      have hold := hs k session hk
      have hrun : (s.lent session).phase = .running := Server.running_of_branch hbranch hstep
      have hwritten := hold.running hrun
      obtain ⟨hqueue, new, hserved, hanswers⟩ := answers_step (k := k) hold.queue hstep
      have hnegotiated : server.negotiated = session.server.negotiated :=
        (Server.fixed_step hstep).negotiated
      rw [hafter]
      refine ⟨?_, hqueue, ?_, ?_⟩
      · rw [answers_append, hold.answers, hanswers]
        dsimp only
        rw [hserved, List.map_append, hnegotiated]
      · rcases (Server.step_writes hstep).2 with rfl | ⟨-, w, rfl, -⟩
        · rw [List.append_nil]
          exact hold.writes
        · rw [List.dropLast_concat]
          exact hwritten
      · intro hrunning w hw
        rcases List.mem_append.mp hw with hw | hw
        · exact hwritten w hw
        · rcases (Server.step_writes hstep).2 with rfl | ⟨-, w', rfl, hdone | hended⟩
          · cases hw
          · rw [List.mem_singleton.mp hw]
            exact hdone
          · exact absurd hrunning hended

theorem answered_exec {es : List HubEvent} (hrun : exec Hub.step (Hub.init c) es = some s) :
    ∀ k session, s.sessions.lookup k = some session → Answered session := by
  refine exec_inv_of_step (fun (s : Hub) e t (hs : ∀ k session,
    s.sessions.lookup k = some session → Answered session) h k session' hk' => ?_)
    (fun k session hk => ?_) hrun
  · exact .move hs (sessionMove_of_step h hk')
  · cases hk

/-- The tables have gained the Service, and nothing else. -/
structure Gains (id : SessionId) (register : RegisterService) (old new : Server.Tables) : Prop where
  absent : old.services.lookup register.serviceId = none
  services : new.services = old.services.insert register.serviceId register.name
  names : new.names = register.name :: old.names
  binds : ∃ bind, new.binds = old.binds ++ [⟨id, register.serviceId, bind⟩]
  gauge : new.serviceGauge = old.serviceGauge + 1
  sessions : new.sessionGauge = old.sessionGauge

/-- A registration is answered by `RegisterAck` exactly when the tables gain its
Service, and a refusal leaves them. -/
theorem ack_iff_gains {server edited : Server} {register : RegisterService} {os : BindOutcome}
    {v : Verdict} (hr : server.registerService register os = (edited, v))
    (hword : server.counters.services + 1 < usizeValues) :
    ((∃ ack, Server.response server.negotiated register.serviceId v = .registerAck ack) ↔
      Gains server.sessionId register server.tables edited.tables) ∧
    ((∀ ack, Server.response server.negotiated register.serviceId v ≠ .registerAck ack) →
      edited.tables = server.tables) := by
  cases v with
  | accepted bind =>
      obtain ⟨-, hfree, -, htables⟩ := Server.tables_of_accepted hr
      refine ⟨⟨fun _ => ?_, fun _ => ⟨_, rfl⟩⟩, fun hne => absurd rfl (hne _)⟩
      rw [htables, fetchAdd_of_lt hword]
      exact ⟨hfree, rfl, rfl, ⟨bind, rfl⟩, rfl, rfl⟩
  | refused code =>
      have hsame := Server.registerService_refused hr
      refine ⟨⟨?_, fun hgains => ?_⟩, fun _ => congrArg Server.tables hsame⟩
      · rintro ⟨ack, hack⟩
        unfold Server.response at hack
        dsimp only at hack
        split_ifs at hack
      · -- a gain is a change
        have hgauge := hgains.gauge
        rw [hsame] at hgauge
        exact absurd hgauge (Nat.ne_of_lt (Nat.lt_succ_self _))

/-- What serving one registration does. -/
structure Serves (s t : Hub) (k : ContextId) (register : RegisterService) (os : BindOutcome)
    (o : WriteOutcome) (session session' : ServerSession) (edited : Server) (v : Verdict) :
    Prop where
  before : s.sessions.lookup k = some session
  after : t.sessions.lookup k = some session'
  edits : (s.lent session).registerService register os = (edited, v)
  served : session'.served = session.served ++ [(register, v)]
  written : session'.written = session.written ++
    [(Server.response session.server.negotiated register.serviceId v, o)]
  acked : (∃ ack, Server.response session.server.negotiated register.serviceId v = .registerAck ack) ↔
    Gains session.server.sessionId register (s.lent session).tables edited.tables
  refused : (∀ ack, Server.response session.server.negotiated register.serviceId v
    ≠ .registerAck ack) → edited.tables = (s.lent session).tables
  completed : o = .done → session'.server.phase = .running ∧ (t.lent session').tables = edited.tables
  failed : o ≠ .done → session'.server.phase ≠ .running

theorem Tabled.serves (hs : Tabled c s) {register : RegisterService} {os : BindOutcome}
    {o : WriteOutcome} (h : s.step (.control k (.incoming (.registerService register) os o)) = some t) :
    ∃ session session' edited v, Serves s t k register os o session session' edited v := by
  obtain ⟨session, server, writes, pending, hk, hstep, hcounters, hk'⟩ := moved_of_control h
  obtain ⟨hrun, ⟨_, edited, v, heq, hr, rfl, ht⟩ | ⟨_, heq, -⟩ | ⟨hne, -⟩⟩ :=
    Server.step_incoming hstep
  · cases heq
    have hserved : (s.branch k session (.incoming (.registerService register) os o)).2.served
        = session.served ++ [(register, v)] := by
      unfold branch
      dsimp only
      rw [hr]
      cases v <;> rfl
    have hword : (s.lent session).counters.services + 1 < usizeValues := by
      have hgauge : (s.lent session).counters.services = s.counters.binds.length :=
        hs.shared.filed.gauge
      rw [hgauge]
      exact hs.word
    obtain ⟨hacked, hrefused⟩ := ack_iff_gains hr hword
    refine ⟨session, _, edited, v, hk, hk', hr, hserved, rfl, hacked, hrefused, ?_, ?_⟩
    · intro hdone
      rcases ht with ⟨-, rfl⟩ | ⟨hne, -⟩
      · refine ⟨(Server.registerService_frame hr).2.2.2.trans hrun, ?_⟩
        rw [Server.tables, lent, hcounters]
        rfl
      · exact absurd hdone hne
    · intro hne
      rcases ht with ⟨hdone, -⟩ | ⟨-, error, rfl⟩
      · exact absurd hdone hne
      · exact Server.finish_ne_running _ _
  · cases heq
  · exact absurd rfl (hne register)

/-- The bind table lists the Services of the Sessions that run. -/
theorem Tabled.mem_index (hs : Tabled c s) {id : SessionId} {service : ServiceId} :
    (id, service) ∈ Server.index s.counters.binds ↔
      ∃ k session, s.sessions.lookup k = some session ∧ session.server.phase = .running ∧
        session.server.sessionId = id ∧ (session.server.services.lookup service).isSome := by
  refine (hs.shared.filed.indexed.mem).trans ?_
  constructor
  · intro hmem
    obtain ⟨k, hreg⟩ := registry_of_mem_serviceKeys hmem
    obtain ⟨session, hk, rfl, hrunning⟩ := hs.registered.running id k hreg
    rw [serviceKeys_of_live hs.registered hk hrunning] at hmem
    exact ⟨k, session, hk, hrunning, rfl, AList.lookup_isSome.mpr hmem⟩
  · rintro ⟨k, session, hk, hrunning, rfl, hsome⟩
    rw [serviceKeys_of_live hs.registered hk hrunning]
    exact AList.lookup_isSome.mp hsome

/-- **The registration tables.**  In every run of the server in which a new
Session gets the id of none that runs, after every step:

* the names of a Session are those of its Services, no two Services share one,
  and there are at most as many as both limits allow;
* the bind table has one entry for each Service registered in a live Session,
  the counter of Services is its length, and the counter of Sessions is the
  number of live guards, within its limit;
* every Session has answered what it has served, one frame each and in order,
  and only the last write may have failed, which ended the Session;
* the next registration is answered by `RegisterAck` exactly if the tables gain
  it, and a refusal leaves them as they were. -/
theorem registration_tables (c : HubConfig) (es : List HubEvent) (s : Hub)
    (hunused : AllSteps step (fun s e => s.unused e = true) (init c) es)
    (hrun : exec step (init c) es = some s) :
    (∀ k session, s.sessions.lookup k = some session → session.server.phase = .running →
      session.server.names.Nodup ∧
      (∀ name, name ∈ session.server.names ↔
        ∃ id, session.server.services.lookup id = some name) ∧
      (∀ id id' name, session.server.services.lookup id = some name →
        session.server.services.lookup id' = some name → id = id') ∧
      session.server.services.size
        ≤ min c.bindPolicy.maxServicesPerSession c.policy.limits.servicesPerSession) ∧
    (s.counters.binds.map fun b => (b.session, b.service)).Nodup ∧
    (∀ id service, (id, service) ∈ s.counters.binds.map (fun b => (b.session, b.service)) ↔
      ∃ k session, s.sessions.lookup k = some session ∧ session.server.phase = .running ∧
        session.server.sessionId = id ∧ (session.server.services.lookup service).isSome) ∧
    s.counters.services = s.counters.binds.length ∧
    s.counters.sessions = s.liveGuards.length ∧
    s.counters.sessions ≤ c.policy.limits.sessions ∧
    (∀ k session, s.sessions.lookup k = some session →
      answers session.written = (session.served.map fun r =>
        Server.response session.server.negotiated r.1.serviceId r.2) ∧
      (∀ w ∈ session.written.dropLast, w.2 = .done) ∧
      (session.server.phase = .running → ∀ w ∈ session.written, w.2 = .done)) ∧
    (∀ k register os o t, s.step (.control k (.incoming (.registerService register) os o)) = some t →
      ∃ session session' edited v, Serves s t k register os o session session' edited v) := by
  have hs : Tabled c s :=
    exec_inv (fun _ _ _ hs hu h => hs.step hu h) (Tabled.init c) hunused hrun
  refine ⟨?_, hs.shared.filed.indexed.nodup_index, ?_, hs.shared.filed.gauge, ?_, ?_, ?_,
    fun k register os o t h => hs.serves h⟩
  · intro k session hk hrunning
    have htidy := hs.tidy k session hk
    have hnamed := htidy.named hrunning
    have hsize := hnamed.size
    rw [Server.capacity, htidy.policy, htidy.bindPolicy] at hsize
    refine ⟨hnamed.nodup, fun name => ?_, ?_, hsize⟩
    · rw [hnamed.perm.mem_iff, Table.mem_values]
    · intro id id' name hid hid'
      have hvalues : session.server.services.values.Nodup := hnamed.perm.nodup_iff.mp hnamed.nodup
      have heq := List.inj_on_of_nodup_map hvalues (Table.lookup_eq_some_iff.mp hid)
        (Table.lookup_eq_some_iff.mp hid') rfl
      exact congrArg Sigma.fst heq
  · exact fun id service => hs.mem_index
  · rw [hs.registered.length_liveGuards]
    exact hs.shared.guards
  · rw [hs.shared.guards]
    exact hs.shared.limit
  · intro k session hk
    have hanswered := answered_exec hrun k session hk
    exact ⟨hanswered.answers, hanswered.writes, hanswered.running⟩

/-- A Service is registered, and asked for a second time. -/
def registerTwice : List HubEvent :=
  [.connect sampleId none correlatedPeer, .greet 0 .done,
    .control 0 (.incoming (.registerService webService.registration)
      (.bound (.v6 localhostOctets 1000)) .done),
    .control 0 (.incoming (.registerService webService.registration)
      (.bound (.v6 localhostOctets 1001)) .done)]

/-- The server after that run. -/
def afterTwice : Hub := (exec step (init smallHub) registerTwice).get (by decide +kernel)

theorem registration_tables_after_two :
    exec step (init smallHub) registerTwice = some afterTwice ∧ afterTwice.liveGuards = [0] ∧
    afterTwice.counters.binds.length = 1 ∧ afterTwice.counters.services = 1 ∧
    afterTwice.counters.sessions = 1 := by
  have hrun : exec step (init smallHub) registerTwice = some afterTwice :=
    Option.eq_some_of_isSome _
  obtain ⟨-, -, -, hservices, hsessions, -⟩ :=
    registration_tables smallHub registerTwice afterTwice (by decide +kernel) hrun
  have hbinds : afterTwice.counters.binds.length = 1 := by decide +kernel
  have hlive : afterTwice.liveGuards = [0] := by decide +kernel
  rw [hlive] at hsessions
  exact ⟨hrun, hlive, hbinds, hservices.trans hbinds, hsessions⟩

end Hub

end Eggtunnel
