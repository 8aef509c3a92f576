/-
Eggtunnel/Isolation.lean

What one Session can do to another.

The bind table, the registry and the counters are shared by all Sessions, and a
peer chooses its `ServiceId`s and may copy any id it has seen.  Every step is
about one Session at most (`concerns`): the one whose control loop moves, whose
task or relay moves, or which a data connection has found by its `SessionId`.
No other Session notices (`untouched_step`), since the entries of the shared
tables are filed under `SessionId`s, which are fresh, and a token cancels a task
of its own Session.
-/
import Eggtunnel.Teardown
import Eggtunnel.ServiceTables

namespace Eggtunnel

/-! ### The bind table of other Sessions -/

namespace Server

variable {s t : Server} {e : ServerEvent} {writes : List Write}

/-- The entries of a Session. -/
def entriesOf (binds : BindTable) (id : SessionId) : BindTable := binds.filter (·.session = id)

variable {id : SessionId}

/-- Taking out entries of one Session leaves those of another. -/
theorem entriesOf_filter {binds : BindTable} {p : BindEntry → Bool}
    (hp : ∀ b ∈ binds, b.session = id → p b = true) : entriesOf (binds.filter p) id = entriesOf binds id := by
  unfold entriesOf
  rw [List.filter_filter]
  refine List.filter_congr fun b hb => ?_
  by_cases hid : b.session = id
  · simp [hid, hp b hb hid]
  · simp [hid]

theorem entriesOf_edited (hid : id ≠ s.sessionId) (e : ServerEvent) :
    entriesOf (s.edited e).counters.binds id = entriesOf s.counters.binds id := by
  rcases s.edited_cases e with heq | ⟨register, os, o, bind, -, hr⟩ |
    ⟨unregister, os, o, name, -, hname, heq⟩
  · rw [heq]
  · obtain ⟨-, -, hbinds, -⟩ := Tables.mk.inj (tables_of_accepted hr).2.2.2
    rw [hbinds]
    unfold entriesOf
    rw [List.filter_append]
    simp [hid.symm]
  · obtain ⟨-, -, hbinds, -⟩ := Tables.mk.inj (tables_of_removed hname)
    rw [heq, hbinds]
    refine entriesOf_filter fun b _ hb => ?_
    simp [hb, hid]

theorem entriesOf_dropGuard (hid : id ≠ s.sessionId) :
    entriesOf s.dropGuard.counters.binds id = entriesOf s.counters.binds id :=
  entriesOf_filter fun b _ hb => by simp [hb, hid]

/-- **A branch leaves the entries of other Sessions.** -/
theorem entriesOf_step (hid : id ≠ s.sessionId) (he : e.isBranch = true)
    (h : s.step e = some (t, writes)) :
    entriesOf t.counters.binds id = entriesOf s.counters.binds id := by
  rcases step_edited he h with ⟨-, htables⟩ | ⟨-, htables⟩
  · rw [binds_of_tables htables]
    exact entriesOf_edited hid e
  · rw [binds_of_tables htables, entriesOf_dropGuard ((s.fixed_edited e).sessionId ▸ hid)]
    exact entriesOf_edited hid e

end Server

namespace Hub

variable {s t u : Hub} {e : HubEvent} {k b : ContextId} {session : ServerSession}

/-! ### Whom a step is about -/

/-- The Session whose control loop, task or relay moves, or which the data
connection has found. -/
def concerns (s : Hub) : HubEvent → Option ContextId
  | .greet k _ | .control k _ | .contextDropped k => some k
  | .accept r _ | .insert r _ | .advertise r | .rollBack r | .leave r | .exit r
  | .taskDropped r => (s.tasks.lookup r).map (·.context)
  | .received x | .gaveUp x | .release x | .relayDropped x =>
      (s.relays.lookup x).map (·.context)
  | .resolve d _ => (s.hellos.lookup d).map (·.context)
  | .connect _ _ _ | .dataHello _ _ | .helloDropped _ => none

/-- The tasks of a Session are there unchanged. -/
def TasksStay (b : ContextId) (s t : Hub) : Prop :=
  ∀ r task, s.tasks.lookup r = some task → task.context = b → t.tasks.lookup r = some task

/-- The registration is of the Session: it has the task or the token. -/
inductive Owns (s : Hub) (b : ContextId) (r : RegistrationId) : Prop
  | task (task : ServiceTask) (hr : s.tasks.lookup r = some task) (hcontext : task.context = b)
  | token (service : ServiceId) (h : s.Token b service r)

theorem Owns.home {r : RegistrationId} (h : s.Owns b r) : ∃ service, s.Home r b service := by
  rcases h with ⟨task, hr, hcontext⟩ | ⟨service, htoken⟩
  · exact ⟨_, .task task hr hcontext rfl⟩
  · exact ⟨service, .token htoken⟩

/-- Everything of a Session is as it was. -/
structure Untouched (b : ContextId) (session : ServerSession) (s t : Hub) : Prop where
  /-- its map of Services, its names, its pending connections and its queue -/
  kept : t.sessions.lookup b = some session
  binds : Server.entriesOf t.counters.binds session.server.sessionId
    = Server.entriesOf s.counters.binds session.server.sessionId
  registry : t.registry.lookup session.server.sessionId
    = s.registry.lookup session.server.sessionId
  tasks : TasksStay b s t
  cancelled : ∀ r, s.Owns b r → (r ∈ t.cancelled ↔ r ∈ s.cancelled)

theorem Untouched.refl (hb : s.sessions.lookup b = some session) : Untouched b session s s :=
  ⟨hb, rfl, rfl, fun _ _ hr _ => hr, fun _ _ => Iff.rfl⟩

theorem Untouched.trans (hb : s.sessions.lookup b = some session) (hst : Untouched b session s t)
    (htu : Untouched b session t u) : Untouched b session s u where
  kept := htu.kept
  binds := htu.binds.trans hst.binds
  registry := htu.registry.trans hst.registry
  tasks r task hr hcontext := htu.tasks r task (hst.tasks r task hr hcontext) hcontext
  cancelled r h := by
    have howns : t.Owns b r := by
      rcases h with ⟨task, hr, hcontext⟩ | ⟨service, old, hold, htoken⟩
      · exact .task task (hst.tasks r task hr hcontext) hcontext
      · obtain rfl := Option.some.inj (hold.symm.trans hb)
        exact .token service ⟨old, hst.kept, htoken⟩
    exact (htu.cancelled r howns).trans (hst.cancelled r h)

theorem tasksStay_of_eq (h : t.tasks = s.tasks) : TasksStay b s t := fun _ _ hr _ => h ▸ hr

theorem tasksStay_of_insert {r : RegistrationId} {task new : ServiceTask}
    (hr : s.tasks.lookup r = some task) (hne : task.context ≠ b)
    (h : t.tasks = s.tasks.insert r new) : TasksStay b s t := by
  intro r' task' hr' hcontext
  rw [h, Table.lookup_insert_eq, if_neg ?_]
  · exact hr'
  · rintro rfl
    obtain rfl := Option.some.inj (hr.symm.trans hr')
    exact hne hcontext

theorem tasksStay_of_erase {r : RegistrationId} {task : ServiceTask}
    (hr : s.tasks.lookup r = some task) (hne : task.context ≠ b)
    (h : t.tasks = s.tasks.erase r) : TasksStay b s t := by
  intro r' task' hr' hcontext
  rw [h, Table.lookup_erase_eq, if_neg ?_]
  · exact hr'
  · rintro rfl
    obtain rfl := Option.some.inj (hr.symm.trans hr')
    exact hne hcontext

/-- What the tasks do to other Sessions. -/
theorem untouched_of_aside (h : Aside s t) (hb : s.sessions.lookup b = some session)
    (hsessions : t.sessions.lookup b = s.sessions.lookup b) (htasks : TasksStay b s t)
    (hcancelled : t.cancelled = s.cancelled) : Untouched b session s t where
  kept := hsessions.trans hb
  binds := by rw [h.binds]
  registry := by rw [h.registry]
  tasks := htasks
  cancelled _ _ := by rw [hcancelled]

theorem lookup_put {new : ServerSession} (hne : k ≠ b) (h : t.sessions = s.sessions.insert k new) :
    t.sessions.lookup b = s.sessions.lookup b := by
  rw [h, Table.lookup_insert_eq, if_neg hne.symm]

theorem untouched_aside (he : e.isSessions = false) (h : s.step e = some t)
    (hb : s.sessions.lookup b = some session) (hne : s.concerns e ≠ some b) :
    Untouched b session s t := by
  have haside := aside_step he h
  have hput {r : RegistrationId} {task : ServiceTask} (hr : s.tasks.lookup r = some task)
      (hne : (s.tasks.lookup r).map (·.context) ≠ some b) : task.context ≠ b := by
    rw [hr] at hne
    simpa using hne
  have hrelay {x : ExternalId} {relay : RelayTask} (hx : s.relays.lookup x = some relay)
      (hne : (s.relays.lookup x).map (·.context) ≠ some b) : relay.context ≠ b := by
    rw [hx] at hne
    simpa using hne
  cases took_of_step h with
  | turnedAway | connected | greeted | unreached | controlled | contextDropped => cases he
  | admitted hat | full hat | unadvertised hat | left hat =>
      exact untouched_of_aside haside hb rfl (tasksStay_of_insert hat.1 (hput hat.1 hne) rfl) rfl
  | inserted hat | advertised hat | rolledBack hat =>
      have hcontext := hput hat.1 hne
      exact untouched_of_aside haside hb (lookup_put hcontext rfl)
        (tasksStay_of_insert hat.1 hcontext rfl) rfl
  | exited hat | abortedRollingBack hat | aborted hat =>
      have hcontext := hput hat.1 hne
      exact untouched_of_aside haside hb (lookup_put hcontext rfl)
        (tasksStay_of_erase hat.1 hcontext rfl) rfl
  | relaying hat | ended hat =>
      exact untouched_of_aside haside hb (lookup_put (hrelay hat.1 hne) rfl) (tasksStay_of_eq rfl)
        rfl
  | unknown hd | mismatched hd | delivered hd | late hd =>
      have hcontext := by simpa [concerns, hd] using hne
      exact untouched_of_aside haside hb (lookup_put hcontext rfl) (tasksStay_of_eq rfl) rfl
  | saturated | unidentified | received | gaveUp | relayDropped | found | notFound | helloDropped =>
      exact untouched_of_aside haside hb rfl (tasksStay_of_eq rfl) rfl

/-! ### The control loops -/

/-- A Session that ends cancels its own tasks. -/
theorem cancelled_conclude (s : Hub) (k : ContextId) (session : ServerSession) (breaks : Bool)
    {r : RegistrationId} (hr : ∀ task, s.tasks.lookup r = some task → task.context ≠ k) :
    r ∈ (s.conclude k session breaks).cancelled ↔ r ∈ s.cancelled := by
  have hdrop (u : Hub) (id : SessionId) (htasks : u.tasks = s.tasks)
      (hcancelled : u.cancelled = s.cancelled) :
      r ∈ (u.dropGuard k id).cancelled ↔ r ∈ s.cancelled := by
    dsimp only [dropGuard]
    rw [htasks, hcancelled, List.mem_append, or_iff_right ?_]
    rw [List.mem_filter, Option.any_eq_true]
    rintro ⟨-, task, hlook, hcontext⟩
    exact hr task hlook (of_decide_eq_true hcontext)
  unfold conclude
  rcases session.server.phase with - | result
  · exact Iff.rfl
  · cases breaks with
    | true => exact hdrop _ _ rfl rfl
    | false => exact hdrop _ _ rfl rfl

/-- A branch cancels a registration of its own Session. -/
theorem cancelled_branch (hhoused : Housed s) (hk : s.sessions.lookup k = some session)
    (e : ServerEvent) {r : RegistrationId} (hr : s.Owns b r) (hne : k ≠ b) :
    r ∈ (s.branch k session e).1.cancelled ↔ r ∈ s.cancelled := by
  unfold branch
  split
  · split <;> exact Iff.rfl
  · split
    · rename_i r' htoken
      rw [List.mem_cons, or_iff_right ?_]
      rintro rfl
      -- its home would be in two Sessions
      obtain ⟨service, hhome⟩ := hr.home
      exact hne (hhoused.one r _ _ _ _ (.token ⟨session, hk, htoken⟩) hhome).1
    · exact Iff.rfl
  · exact Iff.rfl
  · exact Iff.rfl

/-- No task of another Session has a registration of this one. -/
theorem Owns.context_ne {r : RegistrationId} {task : ServiceTask} (hr : s.Owns b r)
    (hhoused : Housed s) (hne : k ≠ b) (hlook : s.tasks.lookup r = some task) :
    task.context ≠ k := by
  rintro rfl
  obtain ⟨service, hhome⟩ := hr.home
  exact hne (hhoused.one r _ _ _ _ (.task task hlook rfl rfl) hhome).1

/-- What holds throughout a run with fresh ids. -/
structure Separate (c : HubConfig) (s : Hub) : Prop where
  use : SingleUse c s
  housed : Housed s
  ids : ∀ a b session session', s.sessions.lookup a = some session →
    s.sessions.lookup b = some session' →
    session.server.sessionId = session'.server.sessionId → a = b
  hellos : ∀ d task, s.hellos.lookup d = some task → task.context < s.next ∧
    ∀ session, s.sessions.lookup task.context = some session →
      session.server.sessionId = task.hello.sessionId

variable {c : HubConfig}

/-- A new Session has an id that no other has had. -/
theorem id_of_new (hfresh : s.fresh e = true) (h : s.step e = some t)
    {session' : ServerSession} (hk : t.sessions.lookup s.next = some session')
    (hnew : s.sessions.lookup s.next = none) : session'.server.sessionId ∉ s.sessionIds := by
  cases sessionMove_of_step h hk with
  | begun id principal negotiated hnext hbegun =>
      rw [hbegun]
      have hid : id ∉ s.sessionIds := by simpa [fresh] using hfresh
      exact hid
  | still session hold | greeted o session hold | unreached o session error hold
  | moved e session server writes pending hold => cases hnew.symm.trans hold

theorem Separate.step (hs : Separate c s) (hfresh : s.fresh e = true) (h : s.step e = some t) :
    Separate c t := by
  have hsteady := steady_step h
  have hregistered := hs.use.registered
  have hnumbered := hs.use.reconciled.numbered
  have hnone : s.sessions.lookup s.next = none := by
    rcases hlook : s.sessions.lookup s.next with - | session
    · rfl
    · exact absurd (hnumbered _ session hlook) (lt_irrefl _)
  -- a new Session and an old one have two ids
  have hnew {a b : ContextId} {new new' old : ServerSession} (ha : t.sessions.lookup a = some new)
      (hnext : a = s.next) (hold : s.sessions.lookup b = some old) (hsame : SameContext old new') :
      new.server.sessionId ≠ new'.server.sessionId := by
    subst hnext
    intro heq
    refine id_of_new hfresh h ha hnone ?_
    rw [heq, hsame.server.sessionId]
    exact hregistered.ids b old hold
  refine ⟨hs.use.step hfresh h, hs.housed.step hs.use h, fun a b new new' ha hb hid => ?_,
    fun d task hd => ?_⟩
  · rcases hsteady.sessions a new ha with ⟨old, hold, hsame⟩ | ⟨hnext, -⟩
    · rcases hsteady.sessions b new' hb with ⟨old', hold', hsame'⟩ | ⟨hnext', -⟩
      · refine hs.ids a b old old' hold hold' ?_
        rw [← hsame.server.sessionId, ← hsame'.server.sessionId]
        exact hid
      · exact absurd hid.symm (hnew hb hnext' hold hsame)
    · rcases hsteady.sessions b new' hb with ⟨old', hold', hsame'⟩ | ⟨hnext', -⟩
      · exact absurd hid (hnew ha hnext hold' hsame')
      · exact hnext.trans hnext'.symm
  · rcases hellos_step h hd with hbefore | ⟨rfl, -, hfinds⟩
    · obtain ⟨hlt, hnamed⟩ := hs.hellos d task hbefore
      refine ⟨hlt.trans_le hsteady.next, fun new hk => ?_⟩
      rcases hsteady.sessions _ new hk with ⟨old, hold, hsame⟩ | ⟨hnext, -⟩
      · rw [hsame.server.sessionId]
        exact hnamed old hold
      · exact absurd hlt (hnext ▸ lt_irrefl _)
    · obtain ⟨-, session, hk, -, hid, -⟩ := hregistered.findsLive hfinds
      refine ⟨(hnumbered _ session hk).trans_le hsteady.next, fun new hk' => ?_⟩
      rcases hsteady.sessions _ new hk' with ⟨old, hold, hsame⟩ | ⟨hnext, -⟩
      · obtain rfl := Option.some.inj (hold.symm.trans hk)
        rw [hsame.server.sessionId]
        exact hid
      · exact absurd (hnumbered _ session hk) (hnext ▸ lt_irrefl _)

theorem Separate.init (c : HubConfig) : Separate c (init c) := by
  refine ⟨SingleUse.init c, Housed.init c, fun _ _ _ _ h => ?_, fun _ _ h => ?_⟩
  · cases h
  · cases h

/-- The end of a branch, seen from another Session. -/
theorem untouched_conclude {v : Hub} {new : ServerSession} {breaks : Bool}
    (hb : s.sessions.lookup b = some session) (hne : k ≠ b)
    (hid : new.server.sessionId ≠ session.server.sessionId) (hsessions : v.sessions = s.sessions)
    (hregistry : v.registry = s.registry)
    (hbinds : Server.entriesOf v.counters.binds session.server.sessionId
      = Server.entriesOf s.counters.binds session.server.sessionId)
    (htasks : TasksStay b s v)
    (howned : ∀ r, s.Owns b r → (r ∈ v.cancelled ↔ r ∈ s.cancelled) ∧
      ∀ task, v.tasks.lookup r = some task → task.context ≠ k) :
    Untouched b session s (v.conclude k new breaks) := by
  obtain ⟨p, -, heq⟩ := v.conclude_frame k new breaks
  refine ⟨?_, ?_, ?_, fun r task hr hcontext => ?_, fun r hr => ?_⟩
  · rw [heq]
    dsimp only
    rw [Table.lookup_insert_eq, if_neg hne.symm, hsessions]
    exact hb
  · rw [heq]
    exact hbinds
  · rw [registry_conclude, hregistry]
    split_ifs
    · rfl
    · rw [Table.lookup_erase_eq, if_neg hid.symm]
  · rw [heq]
    exact htasks r task hr hcontext
  · obtain ⟨hcancelled, htheirs⟩ := howned r hr
    exact (v.cancelled_conclude k new breaks htheirs).trans hcancelled

/-- **A step that is about another Session leaves a Session untouched.** -/
theorem untouched_step (hs : Separate c s) (hfresh : s.fresh e = true) (h : s.step e = some t)
    (hb : s.sessions.lookup b = some session) (hne : s.concerns e ≠ some b) :
    Untouched b session s t := by
  cases hsessions : e.isSessions with
  | false => exact untouched_aside hsessions h hb hne
  | true =>
    have hdid := did_of_step h
    cases e with
    | connect id principal negotiated =>
        obtain rfl := hdid
        have hid : session.server.sessionId ≠ id := by
          rintro rfl
          have hnew : session.server.sessionId ∉ s.sessionIds := by simpa [fresh] using hfresh
          exact hnew (hs.use.registered.ids b session hb)
        have hnext := hs.use.reconciled.numbered b session hb
        unfold Hub.connect
        rw [hs.use.registered.retain]
        dsimp only
        split_ifs
        · exact ⟨hb, rfl, rfl, fun _ _ hr _ => hr, fun _ _ => Iff.rfl⟩
        · refine ⟨?_, rfl, ?_, fun _ _ hr _ => hr, fun _ _ => Iff.rfl⟩
          · dsimp only
            rw [Table.lookup_insert_eq, if_neg hnext.ne]
            exact hb
          · dsimp only
            rw [Table.lookup_insert_eq, if_neg hid]
    | greet k o =>
        obtain ⟨other, hk, -, -, rfl⟩ := hdid
        have hne' : k ≠ b := fun heq => hne (congrArg some heq)
        have hid : other.server.sessionId ≠ session.server.sessionId := fun heq =>
          hne' (hs.ids k b other session hk hb heq)
        unfold Hub.greet
        dsimp only
        split
        · exact ⟨(lookup_put hne' rfl).trans hb, rfl, rfl, fun _ _ hr _ => hr, fun _ _ => Iff.rfl⟩
        · exact untouched_conclude hb hne' hid rfl rfl
            (Server.entriesOf_dropGuard (s := s.lent _) hid.symm) (tasksStay_of_eq rfl)
            fun r hr => ⟨Iff.rfl, fun task hlook => hr.context_ne hs.housed hne' hlook⟩
    | control k e =>
        obtain ⟨other, server, writes, hk, -, hbranch, hstep, rfl⟩ := hdid
        have hne' : k ≠ b := fun heq => hne (congrArg some heq)
        have hid : other.server.sessionId ≠ session.server.sessionId := fun heq =>
          hne' (hs.ids k b other session hk hb heq)
        have hframe := (s.branch_frame k other e).1
        have hbelow (r : RegistrationId) (hr : s.Owns b r) : r ≠ s.next := by
          obtain ⟨service, hhome⟩ := hr.home
          exact (hs.housed.below r _ _ hhome).ne
        refine untouched_conclude hb hne' ?_ ?_ ?_ ?_ ?_ fun r hr => ⟨?_, fun task hlook => ?_⟩
        · rw [(Server.fixed_step hstep).sessionId]
          exact hid
        · rw [hframe]
        · rw [hframe]
        · exact Server.entriesOf_step (s := s.lent other) hid.symm hbranch hstep
        · rcases s.branch_tasks k other e with ⟨htasks, -⟩ | ⟨register, os, o, -, htasks, -⟩
          · exact tasksStay_of_eq htasks
          · intro r task hr hcontext
            dsimp only
            rw [htasks, Table.lookup_insert_eq, if_neg (hbelow r (.task task hr hcontext))]
            exact hr
        · exact cancelled_branch hs.housed hk e hr hne'
        · rcases s.branch_tasks k other e with ⟨htasks, -⟩ | ⟨register, os, o, -, htasks, -⟩
          · exact hr.context_ne hs.housed hne' (htasks ▸ hlook)
          · dsimp only at hlook
            rw [htasks, Table.lookup_insert_eq, if_neg (hbelow r hr)] at hlook
            exact hr.context_ne hs.housed hne' hlook
    | contextDropped k =>
        obtain ⟨other, -, -, rfl⟩ := hdid
        have hne' : k ≠ b := fun heq => hne (congrArg some heq)
        refine ⟨?_, rfl, rfl, fun _ _ hr _ => hr, fun _ _ => Iff.rfl⟩
        dsimp only [Hub.contextDropped]
        rw [Table.lookup_erase_eq, if_neg hne'.symm]
        exact hb
    | _ => cases hsessions

/-- The event is one of the control loop of a Session, of its tasks or of its
relays. -/
def isOwn (s : Hub) (b : ContextId) (e : HubEvent) : Prop :=
  s.concerns e = some b ∧ ∀ d now, e ≠ .resolve d now

theorem untouched_exec (hs : Separate c s) {fs : List HubEvent}
    (hothers : AllSteps step (fun u e => u.fresh e = true ∧ u.concerns e ≠ some b) s fs)
    (hrun : exec step s fs = some t) (hb : s.sessions.lookup b = some session) :
    Untouched b session s t := by
  have hboth : ∀ u e v, Separate c u ∧ Untouched b session s u →
      u.fresh e = true ∧ u.concerns e ≠ some b → u.step e = some v →
      Separate c v ∧ Untouched b session s v := by
    rintro u e v ⟨hu, huntouched⟩ ⟨hfresh, hne⟩ h
    exact ⟨hu.step hfresh h, huntouched.trans hb (untouched_step hu hfresh h huntouched.kept hne)⟩
  exact (exec_inv hboth ⟨hs, .refl hb⟩ hothers hrun).2

/-- **Sessions are isolated.**  From every state of a run with fresh ids, a
schedule in which no step is about the Session `b` leaves it as it was: its map
of Services, its names, its pending connections, its entries of the bind table
and of the registry, its tasks and their cancellation.  And a step from outside
that changes its pending connections is a data connection which named its
`SessionId`. -/
theorem session_isolation (c : HubConfig) (es : List HubEvent) (s : Hub)
    (hfresh : AllSteps step (fun s e => s.fresh e = true) (init c) es)
    (hrun : exec step (init c) es = some s) (b : ContextId) (session : ServerSession)
    (hb : s.sessions.lookup b = some session) :
    (∀ fs t, AllSteps step (fun u e => u.fresh e = true ∧ u.concerns e ≠ some b) s fs →
      exec step s fs = some t → Untouched b session s t) ∧
    ∀ e t, s.fresh e = true → s.step e = some t →
      (t.sessions.lookup b).map (·.pending) ≠ some session.pending →
      s.isOwn b e ∨ ∃ d now task, e = .resolve d now ∧ s.hellos.lookup d = some task ∧
        task.context = b ∧ task.hello.sessionId = session.server.sessionId := by
  have hs : Separate c s :=
    exec_inv (fun _ _ _ hs hf h => hs.step hf h) (Separate.init c) hfresh hrun
  refine ⟨fun fs t hothers hfs => untouched_exec hs hothers hfs hb, fun e t hf h hchanged => ?_⟩
  have hconcerns : s.concerns e = some b := by
    by_contra hne
    rw [(untouched_step hs hf h hb hne).kept] at hchanged
    exact hchanged rfl
  by_cases hresolve : ∃ d now, e = .resolve d now
  · obtain ⟨d, now, rfl⟩ := hresolve
    obtain ⟨task, htask, hcontext⟩ := Option.map_eq_some_iff.mp hconcerns
    refine .inr ⟨d, now, task, rfl, htask, hcontext, ?_⟩
    exact ((hs.hellos d task htask).2 session (hcontext ▸ hb)).symm
  · exact .inl ⟨hconcerns, fun d now heq => hresolve ⟨d, now, heq⟩⟩

/-- A second Session registers a Service under the id of the first one's,
rejects the first one's connection, unregisters and drains. -/
def neighbour (id : SessionId) (c : ConnectionId) : List HubEvent :=
  [.connect id none legacyPeer, .greet 3 .done,
    .control 3 (.incoming (.registerService webService.registration)
      (.bound (.v6 localhostOctets 1001)) .done),
    .control 3 (.incoming (.openReject ⟨c, 1⟩) .bindFailed .done),
    .control 3 (.incoming (.unregisterService ⟨webService.id⟩) .bindFailed .done),
    .control 3 (.incoming (.drain ⟨0⟩) .bindFailed .done)]

/-- Another `SessionId`. -/
def otherId : SessionId := ⟨Vector.replicate 16 8⟩

/-- The server after one client's run. -/
def hosting : Hub :=
  (exec step (init smallHub) (acceptOne sampleId sampleConnection)).get (by decide +kernel)

/-- The server with its neighbour. -/
def hostingBoth : Hub :=
  (exec step hosting (neighbour otherId sampleConnection)).get (by decide +kernel)

/-- The first Session still waits for its connection. -/
theorem session_isolation_neighbour :
    hostingBoth.registry.lookup sampleId = some 0 ∧ hostingBoth.registry.lookup otherId = none ∧
    ∃ session, hosting.sessions.lookup 0 = some session ∧
      session.pending.entries.keys = [sampleConnection] ∧
      Untouched 0 session hosting hostingBoth :=
  have hrun := Option.eq_some_of_isSome _
  have hb := Option.eq_some_of_isSome (by decide +kernel : (hosting.sessions.lookup 0).isSome)
  ⟨by decide +kernel, by decide +kernel, _, hb, by decide +kernel,
    (session_isolation smallHub _ hosting (by decide +kernel) hrun 0 _ hb).1 _ hostingBoth
      (by decide +kernel) (Option.eq_some_of_isSome _)⟩

end Hub

end Eggtunnel
