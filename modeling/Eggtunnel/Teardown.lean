/-
Eggtunnel/Teardown.lean

The end of one registration and the connections of another.

A cancelled `run_service` task cleans up when it gets to it, and it cleans up
by `ServiceId`.  Each registration has one home, a Session and a `ServiceId`,
which its task, its token and its pending entries agree on (`Housed`); so as
long as no exit falls into the time of another registration under the same
`ServiceId`, an entry goes only with its own connection, its own registration
or its own Session.
-/
import Eggtunnel.DataHello

namespace Eggtunnel

namespace Hub

variable {s t : Hub} {c : HubConfig}

/-! ### The tasks of the registrations -/

/-- The task keeps its Session and its Service. -/
structure SameTask (a b : ServiceTask) : Prop where
  context : b.context = a.context
  serviceId : b.serviceId = a.serviceId

/-- The control queue of the Session takes another `Open`. -/
def Room (s : Hub) (k : ContextId) : Prop :=
  ∃ session, s.sessions.lookup k = some session ∧ session.server.phase = .running ∧
    session.server.queue.length < s.policy.limits.controlQueue

/-- The tasks are those of before; one is to roll back only if its queue took
no more. -/
def TasksKept (s t : Hub) (e : HubEvent) : Prop :=
  ∀ r task', t.tasks.lookup r = some task' → ∃ task, s.tasks.lookup r = some task ∧
    SameTask task task' ∧ ∀ c x, task'.state = .rollingBack c x →
      task.state = .rollingBack c x ∨ (e = .advertise r ∧ ¬ s.Room task.context)

variable {e : HubEvent} {r : RegistrationId} {task : ServiceTask}

theorem TasksKept.of_eq (h : t.tasks = s.tasks) : TasksKept s t e := fun _ task' hr =>
  ⟨task', h ▸ hr, ⟨rfl, rfl⟩, fun _ _ => .inl⟩

theorem TasksKept.of_set {state : TaskState} (hr : s.tasks.lookup r = some task)
    (h : t.tasks = s.tasks.insert r { task with state })
    (hstate : ∀ c x, state = .rollingBack c x → e = .advertise r ∧ ¬ s.Room task.context) :
    TasksKept s t e := by
  intro r' task' hr'
  rw [h, Table.lookup_insert_eq] at hr'
  split_ifs at hr' with hrr
  · obtain rfl := Option.some.inj hr'
    exact ⟨task, hrr ▸ hr, ⟨rfl, rfl⟩, fun c x hc => .inr (hrr ▸ hstate c x hc)⟩
  · exact ⟨task', hr', ⟨rfl, rfl⟩, fun _ _ => .inl⟩

theorem TasksKept.of_erase (h : t.tasks = s.tasks.erase r) : TasksKept s t e := by
  intro r' task' hr'
  rw [h, Table.lookup_erase_eq] at hr'
  split_ifs at hr'
  exact ⟨task', hr', ⟨rfl, rfl⟩, fun _ _ => .inl⟩

/-- **A task is spawned by an accepted registration** and keeps its home. -/
theorem tasks_step (h : s.step e = some t) :
    TasksKept s t e ∨ ∃ k register os o,
      e = .control k (.incoming (.registerService register) os o) ∧
      t.tasks = s.tasks.insert s.next ⟨k, register.serviceId, .accepting⟩ ∧
      t.next = s.next + 1 ∧
      ∃ session u bind, s.sessions.lookup k = some session ∧
        (s.lent session).registerService register os = (u, .accepted bind) := by
  cases took_of_step h with
  | unreached =>
      obtain ⟨_, _, heq⟩ := s.unreached_frame _ _ _ _
      rw [heq]
      exact .inl (.of_eq rfl)
  | @controlled k e session server writes hk =>
      obtain ⟨_, _, _, _, _, _, heq⟩ :=
        s.controlled_frame k session e server writes (breaks e server)
      rw [heq]
      rcases s.branch_tasks k session e with ⟨htasks, -⟩ |
        ⟨register, os, o, rfl, htasks, -, hnext, u, bind, hverdict⟩
      · exact .inl (.of_eq htasks)
      · exact .inr ⟨k, register, os, o, rfl, htasks, hnext, session, u, bind, hk, hverdict⟩
  | unadvertised hat _ hclosed =>
      -- a task rolls back only if its Session is over or the queue is full
      refine .inl (.of_set hat.1 rfl fun _ _ _ => ⟨rfl, ?_⟩)
      rintro ⟨session', hk', hphase, hqueue⟩
      obtain rfl := Option.some.inj (hat.2.symm.trans hk')
      exact hclosed ⟨hphase, hqueue⟩
  | admitted hat | full hat | inserted hat | advertised hat | rolledBack hat | left hat =>
      exact .inl (.of_set hat.1 rfl (by simp))
  | exited | abortedRollingBack | aborted => exact .inl (.of_erase rfl)
  | turnedAway | connected | greeted | contextDropped | saturated | unidentified | received | gaveUp
  | relaying | ended | relayDropped | found | notFound | unknown | mismatched | delivered | late
  | helloDropped => exact .inl (.of_eq rfl)

/-! ### The home of a registration -/

/-- A `RegisterService` under the id is served in the Session. -/
def Registers (k : ContextId) (service : ServiceId) (e : HubEvent) : Prop :=
  ∃ register os o, e = .control k (.incoming (.registerService register) os o) ∧
    register.serviceId = service

/-- The Session has a registration under the id. -/
def Token (s : Hub) (k : ContextId) (service : ServiceId) (r : RegistrationId) : Prop :=
  ∃ session, s.sessions.lookup k = some session ∧ session.tokens.lookup service = some r

/-- The entry was created by a registration. -/
def CreatedBy (s : Hub) (k : ContextId) (id : ConnectionId) (r : RegistrationId) : Prop :=
  ∃ x, ⟨id, k, r, x⟩ ∈ s.issued

/-- The Session and the `ServiceId` of a registration: those of its task, of
its token, or of one of its entries. -/
inductive Home (s : Hub) (r : RegistrationId) (k : ContextId) (service : ServiceId) : Prop
  | task (task : ServiceTask) (hr : s.tasks.lookup r = some task) (hcontext : task.context = k)
      (hservice : task.serviceId = service)
  | token (h : s.Token k service r)
  | entry (id : ConnectionId) (entry : PendingEntry) (hentry : s.entryOf k id = some entry)
      (hservice : entry.serviceId = service) (hcreated : s.CreatedBy k id r)

variable {k : ContextId} {service : ServiceId}

/-- A branch adds no token but that of a registration. -/
theorem branch_tokens (s : Hub) (k : ContextId) (session : ServerSession) (e : ServerEvent)
    (h : (s.branch k session e).2.tokens.lookup service = some r) :
    session.tokens.lookup service = some r ∨
      r = s.next ∧ (s.branch k session e).1.next = s.next + 1 ∧ Registers k service (.control k e) := by
  unfold branch at h ⊢
  split at h
  · rename_i register os o
    split at h
    · dsimp only at h ⊢
      rw [Table.lookup_insert_eq] at h
      split_ifs at h with hservice
      · exact .inr ⟨(Option.some.inj h).symm, rfl, register, os, o, rfl, hservice.symm⟩
      · exact .inl h
    · exact .inl h
  · split at h
    · dsimp only at h
      rw [Table.lookup_erase_eq] at h
      split_ifs at h
      exact .inl h
    · exact .inl h
  · exact .inl h
  · exact .inl h

theorem token_step (h : s.step e = some t) (ht : t.Token k service r) :
    s.Token k service r ∨ (r = s.next ∧ s.next < t.next ∧ Registers k service e) := by
  obtain ⟨session', hk', htoken⟩ := ht
  cases sessionMove_of_step h hk' with
  | still session hk hsame => exact .inl ⟨session, hk, hsame.tokens ▸ htoken⟩
  | begun id principal negotiated hnext hfresh =>
      rw [hfresh] at htoken
      cases htoken
  | greeted o session hk hbefore hrun hdone hafter =>
      rw [hafter] at htoken
      exact .inl ⟨session, hk, htoken⟩
  | unreached o session error hk hbefore hrun hafter =>
      rw [hafter] at htoken
      exact .inl ⟨session, hk, htoken⟩
  | moved e session server writes pending hk hgreeted hbranch hstep hafter =>
      rw [hafter] at htoken
      rcases s.branch_tokens k session e htoken with hold | ⟨rfl, hnext, hregisters⟩
      · exact .inl ⟨session, hk, hold⟩
      · refine .inr ⟨rfl, ?_, hregisters⟩
        obtain ⟨session₂, server₂, writes₂, hk₂, -, -, -, rfl⟩ := did_of_step h
        obtain rfl := Option.some.inj (hk.symm.trans hk₂)
        obtain ⟨p, -, heq⟩ := Hub.conclude_frame _ k _ (breaks e server₂)
        rw [heq]
        exact Nat.lt_of_lt_of_eq (Nat.lt_succ_self _) hnext.symm

/-- An entry has its `ServiceId` from the task that entered it. -/
theorem entry_step (hs : SingleUse c s) (h : s.step e = some t)
    {id : ConnectionId} {entry : PendingEntry} (hentry : t.entryOf k id = some entry)
    (hcreated : t.CreatedBy k id r) : s.Home r k entry.serviceId := by
  have hdistinct := hs.single.distinct e
  have hold (hissued : t.issued = s.issued) : s.Home r k entry.serviceId := by
    rw [entryOf_eq_some] at hentry
    have hbefore := hs.reconciled.holds_of_issued_eq hdistinct h hissued hentry
    obtain ⟨x, hx⟩ := hcreated
    exact .entry id entry (entryOf_eq_some.mpr hbefore) rfl ⟨x, hissued ▸ hx⟩
  cases idStep_of_step h with
  | quiet hquiet => exact hold hquiet.issued
  | generate => exact hold rfl
  | deliver d now task session entry' hd hk hentry' hservice hnow htasks hrelays hinbox hgenerated
      hissued => exact hold hissued
  | issue r' task session id' now hat hstate ht hroom =>
      obtain ⟨x, hx⟩ := hcreated
      have hunissued := (hs.single.admitted r' id' ⟨task, hat.1, hstate⟩).2
      unfold Hub.insert at ht
      rw [if_neg (Nat.not_le.mpr hroom)] at ht
      split_ifs at ht
      obtain rfl := Option.some.inj ht
      dsimp only [entryOf, setTask, setPending] at hentry hx
      rw [Table.lookup_insert_eq] at hentry
      rcases List.mem_cons.mp hx with hnew | hbefore
      · -- the entry that is entered now
        obtain ⟨rfl, rfl, rfl, -⟩ := Issue.mk.inj hnew
        rw [if_pos rfl, Option.bind_some] at hentry
        dsimp only at hentry
        rw [Table.lookup_insert_eq, if_pos rfl] at hentry
        obtain rfl := Option.some.inj hentry
        exact .task task hat.1 rfl rfl
      · have hid : id ≠ id' := hunissued _ hbefore
        refine .entry id entry ?_ rfl ⟨x, hbefore⟩
        rw [← hentry, entryOf]
        split_ifs with hkk
        · rw [hkk, hat.2]
          dsimp only [Option.bind_some]
          rw [Table.lookup_insert_eq, if_neg hid]
        · rfl

/-- **Homes are given by registrations.** -/
theorem home_step (hs : SingleUse c s) (h : s.step e = some t) (hhome : t.Home r k service) :
    s.Home r k service ∨ (r = s.next ∧ s.next < t.next ∧ Registers k service e) := by
  cases hhome with
  | task task' hr hcontext hservice =>
      rcases tasks_step h with hkept | ⟨k', register, os, o, rfl, htasks, hnext, -⟩
      · obtain ⟨task, htask, hsame, -⟩ := hkept r task' hr
        exact .inl (.task task htask (hsame.context.symm.trans hcontext)
          (hsame.serviceId.symm.trans hservice))
      · rw [htasks, Table.lookup_insert_eq] at hr
        split_ifs at hr with hrr
        · obtain rfl := Option.some.inj hr
          subst hcontext
          exact .inr ⟨hrr, hnext ▸ Nat.lt_succ_self _, register, os, o, rfl, hservice⟩
        · exact .inl (.task task' hr hcontext hservice)
  | token h' => exact (token_step h h').imp_left .token
  | entry id entry hentry hservice hcreated =>
      exact .inl (hservice ▸ entry_step hs h hentry hcreated)

/-- Every registration has one home, and a number of its own. -/
structure Housed (s : Hub) : Prop where
  below : ∀ r k service, s.Home r k service → r < s.next
  one : ∀ r k k' service service', s.Home r k service → s.Home r k' service' →
    k = k' ∧ service = service'

theorem Housed.step (hs : Housed s) (huse : SingleUse c s) (h : s.step e = some t) : Housed t where
  below r k service hhome := by
    rcases home_step huse h hhome with hold | ⟨rfl, hlt, -⟩
    · exact (hs.below r k service hold).trans_le (steady_step h).next
    · exact hlt
  one r k k' service service' hhome hhome' := by
    rcases home_step huse h hhome with hold | ⟨hr, -, register, os, o, he, hservice⟩
    · rcases home_step huse h hhome' with hold' | ⟨hr', -⟩
      · exact hs.one r k k' service service' hold hold'
      · exact absurd (hs.below r k service hold) (hr' ▸ lt_irrefl _)
    · rcases home_step huse h hhome' with hold' | ⟨-, -, register', os', o', he', hservice'⟩
      · exact absurd (hs.below r k' service' hold') (hr ▸ lt_irrefl _)
      · -- both were given in this step
        rw [he] at he'
        cases he'
        exact ⟨rfl, hservice.symm.trans hservice'⟩

theorem Housed.init (c : HubConfig) : Housed (init c) := by
  have hnone {r : RegistrationId} {k : ContextId} {service : ServiceId} :
      ¬ (Hub.init c).Home r k service := by
    rintro (⟨task, hr, -⟩ | ⟨session, hk, -⟩ | ⟨id, entry, hentry, -⟩)
    · cases hr
    · cases hk
    · cases hentry
  exact ⟨fun _ _ _ h => absurd h hnone, fun _ _ _ _ _ h => absurd h hnone⟩

/-! ### Who takes an entry out -/

variable {id : ConnectionId} {entry : PendingEntry}

/-- The step that took the entry out. -/
inductive Taken (s t : Hub) (k : ContextId) (id : ConnectionId) (entry : PendingEntry) :
    HubEvent → Prop
  | hello (d : StreamId) (now : Instant) (task : HelloTask) (hd : s.hellos.lookup d = some task)
      (hcontext : task.context = k) (hid : task.hello.connectionId = id) :
      Taken s t k id entry (.resolve d now)
  | reject (reject : OpenReject) (os : BindOutcome) (o : WriteOutcome)
      (hid : reject.connectionId = id) :
      Taken s t k id entry (.control k (.incoming (.openReject reject) os o))
  | relay (x : ExternalId) (relay : RelayTask) (hx : s.relays.lookup x = some relay)
      (hcontext : relay.context = k) (hid : relay.connection = id) :
      Taken s t k id entry (.release x)
  | unregister (unregister : UnregisterService) (os : BindOutcome) (o : WriteOutcome)
      (hservice : unregister.serviceId = entry.serviceId) :
      Taken s t k id entry (.control k (.incoming (.unregisterService unregister) os o))
  | rollBack (r : RegistrationId) (task : ServiceTask) (x : ExternalId)
      (hr : s.tasks.lookup r = some task) (hcontext : task.context = k)
      (hstate : task.state = .rollingBack id x) : Taken s t k id entry (.rollBack r)
  | exit (r : RegistrationId) (task : ServiceTask) (hr : s.tasks.lookup r = some task)
      (hcontext : task.context = k) (hservice : task.serviceId = entry.serviceId) :
      Taken s t k id entry (.exit r)
  | ended {e : HubEvent}
      (h : ∀ session', t.sessions.lookup k = some session' → session'.server.phase ≠ .running) :
      Taken s t k id entry e

theorem lookup_claimPending (pending : PendingMap) (gauge : Nat) (c id : ConnectionId) :
    (claimPending pending gauge c).1.lookup id = if id = c then none else pending.lookup id := by
  unfold claimPending
  split
  · exact Table.lookup_erase_eq _ _ _
  · rename_i hnone
    split_ifs with hid
    · rw [hid, hnone]
    · rfl

theorem eq_of_claimPending {pending : PendingMap} {gauge : Nat} {c : ConnectionId}
    (h : pending.lookup id = some entry)
    (hgone : (claimPending pending gauge c).1.lookup id ≠ some entry) : id = c := by
  by_contra hne
  rw [lookup_claimPending, if_neg hne] at hgone
  exact hgone h

/-- `remove_service_pending` takes out the entries of its Service only. -/
theorem service_of_retain {pending : PendingMap} (h : pending.lookup id = some entry)
    (hgone : (pending.retain fun _ entry => entry.serviceId ≠ service).lookup id ≠ some entry) :
    entry.serviceId = service := by
  by_contra hne
  refine hgone ?_
  rw [Table.lookup_retain, h, Option.filter_some, if_pos (by simpa using hne)]

/-- The branches that take entries out. -/
theorem taken_of_branch {session : ServerSession} {e : ServerEvent}
    (h : session.pending.lookup id = some entry)
    (hgone : (s.branch k session e).2.pending.lookup id ≠ some entry) :
    Taken s t k id entry (.control k e) := by
  unfold branch at hgone
  split at hgone
  · split at hgone <;> exact absurd h hgone
  · rename_i unregister os o
    split at hgone
    · dsimp only at hgone
      exact .unregister unregister os o (service_of_retain h hgone).symm
    · exact absurd h hgone
  · rename_i reject os o
    dsimp only at hgone
    exact .reject reject os o (eq_of_claimPending h hgone).symm
  · exact absurd h hgone

/-- One Session was put back, and the entry is not there any more. -/
theorem entryOf_put {k' : ContextId} {session session' : ServerSession}
    (hk : s.sessions.lookup k' = some session)
    (hsessions : t.sessions = s.sessions.insert k' session')
    (hentry : s.entryOf k id = some entry) (hgone : t.entryOf k id ≠ some entry) :
    k = k' ∧ session.pending.lookup id = some entry ∧
      session'.pending.lookup id ≠ some entry := by
  unfold entryOf at hentry hgone
  rw [hsessions, Table.lookup_insert_eq] at hgone
  split_ifs at hgone with hkk
  · rw [hkk, hk] at hentry
    exact ⟨hkk, hentry, hgone⟩
  · exact absurd hentry hgone

/-- The end of a branch takes the rest out only if the Session is over. -/
theorem taken_of_conclude {k' : ContextId} {session session' : ServerSession} {u : Hub} {b : Bool}
    (hk : s.sessions.lookup k' = some session) (hentry : s.entryOf k id = some entry)
    (hgone : (u.conclude k' session' b).entryOf k id ≠ some entry)
    (hsessions : u.sessions = s.sessions) :
    k = k' ∧ session.pending.lookup id = some entry ∧
      (session'.pending.lookup id ≠ some entry ∨
        ∀ new, (u.conclude k' session' b).sessions.lookup k = some new →
          new.server.phase ≠ .running) := by
  obtain ⟨r, hr, heq⟩ := u.conclude_frame k' session' b
  have hput : (u.conclude k' session' b).sessions
      = s.sessions.insert k' { session' with pending := r.1 } := by
    rw [heq, ← hsessions]
  obtain ⟨hkk, hpending, hafter⟩ := entryOf_put hk hput hentry hgone
  refine ⟨hkk, hpending, ?_⟩
  rcases hr with rfl | ⟨-, hphase, -⟩
  · exact .inl hafter
  · refine .inr fun new hnew => ?_
    rw [hput, hkk, AList.lookup_insert] at hnew
    rw [← Option.some.inj hnew]
    exact hphase

/-- A new Session is none that had entries. -/
theorem entryOf_begun {session : ServerSession} (hnumbered : Numbered s)
    (hsessions : t.sessions = s.sessions.insert s.next session)
    (hentry : s.entryOf k id = some entry) : t.entryOf k id = some entry := by
  obtain ⟨old, hk, -⟩ := Option.bind_eq_some_iff.mp hentry
  rw [entryOf, hsessions, Table.lookup_insert_eq, if_neg (hnumbered k old hk).ne]
  exact hentry

/-- A new entry takes the place of none. -/
theorem entryOf_inserted {k' : ContextId} {session : ServerSession} {a : ConnectionId}
    {new : PendingEntry} (hk : s.sessions.lookup k' = some session)
    (hfree : session.pending.lookup a = none)
    (hsessions : t.sessions = s.sessions.insert k' { session with
      pending := session.pending.insert a new })
    (hentry : s.entryOf k id = some entry) : t.entryOf k id = some entry := by
  by_contra hgone
  obtain ⟨-, hbefore, hafter⟩ := entryOf_put hk hsessions hentry hgone
  refine hafter ?_
  dsimp only
  rw [Table.lookup_insert_eq, if_neg ?_]
  · exact hbefore
  · rintro rfl
    cases hbefore.symm.trans hfree

/-- A branch of the control loop takes entries out itself, or ends the Session. -/
theorem taken_of_controlled {a : ContextId} {session : ServerSession} {e : ServerEvent}
    {server : Server} {writes : List Write} {b : Bool} (ha : s.sessions.lookup a = some session)
    (ht : t = { (s.branch a session e).1 with counters := server.counters }.conclude a
      { (s.branch a session e).2 with
        server, written := (s.branch a session e).2.written ++ writes } b)
    (hentry : s.entryOf k id = some entry) (hgone : t.entryOf k id ≠ some entry) :
    Taken s t k id entry (.control a e) := by
  subst ht
  have hsessions : (s.branch a session e).1.sessions = s.sessions := by
    rw [(s.branch_frame a session e).1]
  obtain ⟨rfl, hbefore, hafter | hended⟩ := taken_of_conclude ha hentry hgone hsessions
  · exact taken_of_branch hbefore hafter
  · exact .ended hended

/-- **An entry goes in one of seven ways.** -/
theorem taken_of_step (hnumbered : Numbered s) (hdistinct : s.distinct e = true)
    (h : s.step e = some t) (hentry : s.entryOf k id = some entry)
    (hgone : t.entryOf k id ≠ some entry) : Taken s t k id entry e := by
  -- a step has to change the pending map of a Session to take an entry
  have hsame (heq : t.sessions = s.sessions) : Taken s t k id entry e := by
    rw [entryOf, heq] at hgone
    exact absurd hentry hgone
  have hkept {a session session'} (ha : s.sessions.lookup a = some session)
      (heq : t.sessions = s.sessions.insert a session')
      (hpending : session'.pending = session.pending) : Taken s t k id entry e := by
    obtain ⟨-, hbefore, hafter⟩ := entryOf_put ha heq hentry hgone
    exact absurd (hpending ▸ hbefore) hafter
  cases took_of_step h with
  | connected => exact absurd (entryOf_begun hnumbered rfl hentry) hgone
  | unreached hk =>
      obtain ⟨-, hbefore, hafter | hended⟩ := taken_of_conclude hk hentry hgone rfl
      · exact absurd hbefore hafter
      · exact .ended hended
  | controlled hk => exact taken_of_controlled hk rfl hentry hgone
  | contextDropped =>
      -- it is the context of the entry, or the entry is still there
      refine .ended fun session' hk' => absurd ?_ hgone
      dsimp only [Hub.contextDropped, entryOf] at hk' ⊢
      rw [Table.lookup_erase_eq] at hk' ⊢
      split_ifs at hk' ⊢
      exact hentry
  | inserted hat hstate =>
      -- a fresh id overwrites nothing
      refine absurd (entryOf_inserted hat.2 ?_ rfl hentry) hgone
      simpa [distinct, hat.1, hat.2, hstate] using hdistinct
  | rolledBack hat hstate =>
      obtain ⟨rfl, hbefore, hafter⟩ := entryOf_put hat.2 rfl hentry hgone
      obtain rfl := eq_of_claimPending hbefore hafter
      exact .rollBack _ _ _ hat.1 rfl hstate
  | exited hat =>
      obtain ⟨rfl, hbefore, hafter⟩ := entryOf_put hat.2 rfl hentry hgone
      exact .exit _ _ hat.1 rfl (service_of_retain hbefore hafter).symm
  | relaying hat | ended hat =>
      obtain ⟨rfl, hbefore, hafter⟩ := entryOf_put hat.2 rfl hentry hgone
      exact .relay _ _ hat.1 rfl (eq_of_claimPending hbefore hafter).symm
  | unknown hd hk | mismatched hd hk | delivered hd hk | late hd hk =>
      -- the entry is taken out first, and looked at afterwards
      obtain ⟨rfl, hbefore, hafter⟩ := entryOf_put hk rfl hentry hgone
      exact .hello _ _ _ hd rfl (eq_of_claimPending hbefore hafter).symm
  | greeted hk => exact hkept hk rfl rfl
  | advertised hat | abortedRollingBack hat | aborted hat => exact hkept hat.2 rfl rfl
  | turnedAway | saturated | admitted | unidentified | full | unadvertised | left | received
  | gaveUp | relayDropped | found | notFound | helloDropped => exact hsame rfl

/-! ### Teardown -/

/-- What a schedule has to meet: a `run_service` task makes its exit only while
nothing is registered under its `ServiceId`, and the control queue takes every
`Open`, as long as the Session runs. -/
def undisturbed (s : Hub) : HubEvent → Bool
  | .exit r => (s.tasks.lookup r).all fun task =>
      (s.sessions.lookup task.context).all fun session =>
        session.server.phase ≠ .running || (session.tokens.lookup task.serviceId).isNone
  | .advertise r => (s.tasks.lookup r).all fun task =>
      (s.sessions.lookup task.context).all fun session =>
        session.server.phase ≠ .running ||
          session.server.queue.length < s.policy.limits.controlQueue
  | _ => true

/-- The Session is over. -/
def Over (s : Hub) (k : ContextId) : Prop :=
  ∀ session, s.sessions.lookup k = some session → session.server.phase ≠ .running

theorem over_step (hnumbered : Numbered s) (hk : k < s.next) (h : s.step e = some t)
    (hover : s.Over k) : t.Over k := by
  intro session' hk'
  rcases (steady_step h).sessions k session' hk' with ⟨session, hsession, -⟩ | ⟨hnext, -⟩
  · exact ended_step hnumbered h hsession (hover session hsession) hk'
  · exact absurd hk (hnext ▸ lt_irrefl _)

/-- What holds throughout an undisturbed run. -/
structure Orderly (c : HubConfig) (s : Hub) : Prop where
  use : SingleUse c s
  housed : Housed s
  contexts : ∀ r task, s.tasks.lookup r = some task → task.context < s.next
  rolling : ∀ r task id x, s.tasks.lookup r = some task → task.state = .rollingBack id x →
    s.Over task.context

theorem Orderly.step (hs : Orderly c s) (hfresh : s.fresh e = true)
    (hundisturbed : s.undisturbed e = true) (h : s.step e = some t) : Orderly c t := by
  have hnumbered := hs.use.reconciled.numbered
  have hnext := (steady_step h).next
  refine ⟨hs.use.step hfresh h, hs.housed.step hs.use h, ?_, ?_⟩
  · intro r task' hr
    rcases tasks_step h with hkept | ⟨k, register, os, o, rfl, htasks, -⟩
    · obtain ⟨task, htask, hsame, -⟩ := hkept r task' hr
      rw [hsame.context]
      exact (hs.contexts r task htask).trans_le hnext
    · rw [htasks, Table.lookup_insert_eq] at hr
      split_ifs at hr
      · obtain rfl := Option.some.inj hr
        obtain ⟨session, -, -, hk, -⟩ := did_of_step h
        exact (hnumbered k session hk).trans_le hnext
      · exact (hs.contexts r task' hr).trans_le hnext
  · intro r task' id x hr hstate
    rcases tasks_step h with hkept | ⟨k, register, os, o, rfl, htasks, -⟩
    · obtain ⟨task, htask, hsame, hrolling⟩ := hkept r task' hr
      rw [hsame.context]
      refine over_step hnumbered (hs.contexts r task htask) h ?_
      rcases hrolling id x hstate with hbefore | ⟨rfl, hfull⟩
      · exact hs.rolling r task id x htask hbefore
      · -- a queue that took no more has no reader any more
        intro session hk hphase
        refine hfull ⟨session, hk, hphase, ?_⟩
        simpa [undisturbed, htask, hk, hphase] using hundisturbed
    · rw [htasks, Table.lookup_insert_eq] at hr
      split_ifs at hr
      · obtain rfl := Option.some.inj hr
        cases hstate
      · refine over_step hnumbered (hs.contexts r task' hr) h (hs.rolling r task' id x hr hstate)

theorem Orderly.init (c : HubConfig) : Orderly c (init c) :=
  ⟨SingleUse.init c, Housed.init c, fun _ _ h => absurd h (by simp [Hub.init]),
    fun _ _ _ _ h => absurd h (by simp [Hub.init])⟩

/-- What may take out an entry that a registration has created. -/
inductive Removal (s t : Hub) (k : ContextId) (id : ConnectionId) (r : RegistrationId) :
    HubEvent → Prop
  /-- a `DataHello` naming its id -/
  | hello (d : StreamId) (now : Instant) (task : HelloTask) (hd : s.hellos.lookup d = some task)
      (hcontext : task.context = k) (hid : task.hello.connectionId = id) :
      Removal s t k id r (.resolve d now)
  /-- an `OpenReject` naming its id -/
  | reject (reject : OpenReject) (os : BindOutcome) (o : WriteOutcome)
      (hid : reject.connectionId = id) :
      Removal s t k id r (.control k (.incoming (.openReject reject) os o))
  /-- its own relay -/
  | relay (x : ExternalId) (relay : RelayTask) (hx : s.relays.lookup x = some relay)
      (hcontext : relay.context = k) (hid : relay.connection = id) (htask : relay.task = r) :
      Removal s t k id r (.release x)
  /-- the unregistration of the same registration -/
  | unregister (unregister : UnregisterService) (os : BindOutcome) (o : WriteOutcome)
      (htoken : s.Token k unregister.serviceId r) :
      Removal s t k id r (.control k (.incoming (.unregisterService unregister) os o))
  /-- the end of the Session -/
  | ended {e : HubEvent} (h : t.Over k) : Removal s t k id r e

/-- **Teardown stays with its own connections.**  In every interleaving with
fresh ids in which no exit falls into the time of another registration under
its `ServiceId` and no `Open` finds the control queue full: an entry whose
registration is still registered goes only by a `DataHello` or an `OpenReject`
naming it, by its own relay, by the unregistration of that registration, or by
the end of the Session. -/
theorem teardown_own_connections (c : HubConfig) (es : List HubEvent) (s t : Hub) (e : HubEvent)
    (hsteps : AllSteps step (fun s e => s.fresh e = true ∧ s.undisturbed e = true) (init c)
      (es ++ [e]))
    (hrun : exec step (init c) es = some s) (h : s.step e = some t)
    (k : ContextId) (service : ServiceId) (id : ConnectionId) (entry : PendingEntry)
    (r : RegistrationId) (hentry : s.entryOf k id = some entry) (hcreated : s.CreatedBy k id r)
    (htoken : s.Token k service r) :
    t.entryOf k id = some entry ∨ Removal s t k id r e := by
  have hs : Orderly c s :=
    exec_inv (fun _ _ _ hs hc h => hs.step hc.1 hc.2 h) (Orderly.init c) hsteps.of_append hrun
  have hundisturbed : s.undisturbed e = true := (hsteps.last hrun).2
  have hsingle := hs.use.single
  have hnumbered := hs.use.reconciled.numbered
  -- the entry has the `ServiceId` its registration is registered under
  obtain ⟨-, hservice⟩ := hs.housed.one r k k _ _ (.entry id entry hentry rfl hcreated) (.token htoken)
  refine or_iff_not_imp_left.mpr fun hgone => ?_
  cases taken_of_step hnumbered (hsingle.distinct e) h hentry hgone with
  | hello d now task hd hcontext hid => exact .hello d now task hd hcontext hid
  | reject reject os o hid => exact .reject reject os o hid
  | relay x relay hx hcontext hid =>
      refine .relay x relay hx hcontext hid ?_
      obtain ⟨y, hissued⟩ := hcreated
      have hbears := hsingle.bears ⟨relay.connection, relay.context, relay.task, x⟩
        (.inr ⟨relay, hx, rfl, rfl, rfl⟩)
      exact congrArg Issue.registration (hsingle.issue_unique hbears hissued hid)
  | unregister unregister os o hid => exact .unregister unregister os o (by rwa [hid, hservice])
  | rollBack r' task x hr hcontext hstate =>
      have hover := hs.rolling r' task id x hr hstate
      exact .ended (hcontext ▸ over_step hnumbered (hs.contexts r' task hr) h hover)
  | exit r' task hr hcontext hid =>
      subst hcontext
      obtain ⟨session, hk, hsome⟩ := htoken
      rw [← hservice, ← hid] at hsome
      have hover : s.Over task.context := by
        intro session' hk' hphase
        obtain rfl := Option.some.inj (hk.symm.trans hk')
        simp [undisturbed, hr, hk, hphase, hsome] at hundisturbed
      exact .ended (over_step hnumbered (hnumbered _ session hk) h hover)
  | ended hended => exact .ended hended

/-- A data connection has found its Session and waits for the lock. -/
def helloWaits : List HubEvent :=
  acceptOne sampleId sampleConnection ++
    [.advertise 1, .dataHello ⟨sampleId, webService.id, sampleConnection⟩ none]

/-- The server after that run. -/
def atHello : Hub := (exec step (init smallHub) helloWaits).get (by decide +kernel)

theorem teardown_own_connections_at_hello :
    ∃ t entry, atHello.step (.resolve 3 1) = some t ∧
      atHello.entryOf 0 sampleConnection = some entry ∧ t.entryOf 0 sampleConnection = none ∧
      (t.entryOf 0 sampleConnection = some entry ∨
        Removal atHello t 0 sampleConnection 1 (.resolve 3 1)) := by
  have hrun : exec step (init smallHub) helloWaits = some atHello := Option.eq_some_of_isSome _
  have hstep : atHello.step (.resolve 3 1)
      = some ((atHello.step (.resolve 3 1)).get (by decide +kernel)) := Option.eq_some_of_isSome _
  have hentry : atHello.entryOf 0 sampleConnection
      = some ((atHello.entryOf 0 sampleConnection).get (by decide +kernel)) :=
    Option.eq_some_of_isSome _
  have htoken : atHello.Token 0 webService.id 1 :=
    ⟨(atHello.sessions.lookup 0).get (by decide +kernel), Option.eq_some_of_isSome _,
      by decide +kernel⟩
  exact ⟨_, _, hstep, hentry, by decide +kernel,
    teardown_own_connections smallHub helloWaits atHello _ _ (by decide +kernel) hrun hstep 0
      webService.id sampleConnection _ 1 hentry ⟨2, by decide +kernel⟩ htoken⟩

/-- A Service is registered, unregistered, and registered again before the
first `run_service` task has noticed; then an external connection is accepted,
and the first task leaves its loop. -/
def reregister : List HubEvent :=
  [.connect sampleId none legacyPeer, .greet 0 .done,
    .control 0 (.incoming (.registerService webService.registration)
      (.bound (.v6 localhostOctets 1000)) .done),
    .control 0 (.incoming (.unregisterService ⟨webService.id⟩) .bindFailed .done),
    .control 0 (.incoming (.registerService webService.registration)
      (.bound (.v6 localhostOctets 1001)) .done),
    .accept 2 (some sampleConnection), .insert 2 0, .advertise 2, .leave 1]

/-- The server after that run. -/
def reregistered : Hub := (exec step (init smallHub) reregister).get (by decide +kernel)

/-- The late exit of the first task takes out the entry of the second
registration, which is still registered. -/
theorem late_exit_takes_entry :
    ¬ ∀ (c : HubConfig) (es : List HubEvent) (s t : Hub) (e : HubEvent),
      AllSteps step (fun s e => s.fresh e = true) (init c) (es ++ [e]) →
      exec step (init c) es = some s → s.step e = some t →
      ∀ (k : ContextId) (service : ServiceId) (id : ConnectionId) (entry : PendingEntry)
        (r : RegistrationId), s.entryOf k id = some entry → s.CreatedBy k id r →
        s.Token k service r → t.entryOf k id = some entry ∨ Removal s t k id r e := by
  intro hclaim
  have hrun : exec step (init smallHub) reregister = some reregistered :=
    Option.eq_some_of_isSome _
  have hstep : reregistered.step (.exit 1)
      = some ((reregistered.step (.exit 1)).get (by decide +kernel)) := Option.eq_some_of_isSome _
  have hentry : reregistered.entryOf 0 sampleConnection
      = some ((reregistered.entryOf 0 sampleConnection).get (by decide +kernel)) :=
    Option.eq_some_of_isSome _
  have htoken : reregistered.Token 0 webService.id 2 :=
    ⟨(reregistered.sessions.lookup 0).get (by decide +kernel), Option.eq_some_of_isSome _,
      by decide +kernel⟩
  have hafter : ((reregistered.step (.exit 1)).get (by decide +kernel)).entryOf 0 sampleConnection
      = none := by decide +kernel
  rcases hclaim smallHub reregister reregistered _ _ (by decide +kernel) hrun hstep 0 webService.id
    sampleConnection _ 2 hentry ⟨3, by decide +kernel⟩ htoken with hkept | hremoval
  · cases hafter.symm.trans hkept
  · -- the Session still runs, so no cause is left
    cases hremoval with
    | ended hover =>
        exact hover ((((reregistered.step (.exit 1)).get (by decide +kernel)).sessions.lookup 0).get
          (by decide +kernel)) (Option.eq_some_of_isSome _) (by decide +kernel)

end Hub

end Eggtunnel
