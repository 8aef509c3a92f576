/-
Eggtunnel/Workers.lean

What the tasks of the server rest on.

Every `run_service` task, every relay and every data connection past its lookup
works on a context, which therefore stays; a stream that has been sent to an
external connection is awaited there; the tasks of a Session that is over have
been told so; and the number of relays is what `active_connections` says.
-/
import Eggtunnel.HubMoves
import Eggtunnel.Teardown
import Eggtunnel.Tide

namespace Eggtunnel

namespace Hub

variable {s t : Hub} {e : HubEvent} {k : ContextId} {c : HubConfig}

/-! ### Contexts -/

/-- The context has not been dropped. -/
def Live (s : Hub) (k : ContextId) : Prop := ∃ session, s.sessions.lookup k = some session

theorem Live.of_insert {a : ContextId} {session : ServerSession} (hk : s.Live k)
    (hsessions : t.sessions = s.sessions.insert a session) : t.Live k := by
  unfold Live
  rw [hsessions]
  simp only [Table.lookup_insert_eq]
  split_ifs
  · exact ⟨session, rfl⟩
  · exact hk

/-- **Only `SessionContext::drop` takes a context away**, and nobody holds it
then. -/
theorem live_step (h : s.step e = some t) (hk : s.Live k) :
    t.Live k ∨ (e = .contextDropped k ∧ s.held k = false) := by
  cases hsessions : e.isSessions with
  | false =>
      obtain ⟨session, hk⟩ := hk
      obtain ⟨session', hk', -⟩ := (aside_step hsessions h).forward hk
      exact .inl ⟨session', hk'⟩
  | true =>
      cases took_of_step h with
      | turnedAway => exact .inl hk
      | connected | greeted => exact .inl (hk.of_insert rfl)
      | @unreached a o session =>
          obtain ⟨cancelled, registry, heq⟩ := s.unreached_frame a session _ _
          rw [heq]
          exact .inl (hk.of_insert rfl)
      | @controlled a e' session server writes =>
          obtain ⟨_, _, _, _, _, _, heq⟩ :=
            s.controlled_frame a session e' server writes (breaks e' server)
          rw [heq]
          exact .inl (hk.of_insert rfl)
      | @contextDropped a session ha hfree =>
          by_cases hka : k = a
          · exact .inr ⟨congrArg _ hka.symm, hka ▸ hfree⟩
          · obtain ⟨session', hk'⟩ := hk
            refine .inl ⟨session', ?_⟩
            show (s.sessions.erase a).lookup k = _
            rw [Table.lookup_erase_eq, if_neg hka, hk']
      | saturated | admitted | unidentified | full | inserted | advertised | unadvertised
      | rolledBack | left | exited | abortedRollingBack | aborted | received | gaveUp | relaying
      | ended | relayDropped | found | notFound | unknown | mismatched | delivered | late
      | helloDropped => cases hsessions

/-- Nobody holds the context: its control loop is over, and nobody works on it. -/
theorem held_eq_false (h : s.held k = false) :
    (∀ session, s.sessions.lookup k = some session → session.server.phase ≠ .running) ∧
    (∀ r task, s.tasks.lookup r = some task → task.context ≠ k) ∧
    (∀ x relay, s.relays.lookup x = some relay → relay.context ≠ k) ∧
    ∀ d task, s.hellos.lookup d = some task → task.context ≠ k := by
  simp only [held, Bool.or_eq_false_iff, List.any_eq_false, decide_eq_true_eq] at h
  obtain ⟨⟨⟨hsession, htasks⟩, hrelays⟩, hhellos⟩ := h
  refine ⟨fun session hk hrun => ?_, fun r task hr => htasks task (Table.mem_values.mpr ⟨r, hr⟩),
    fun x relay hx => hrelays relay (Table.mem_values.mpr ⟨x, hx⟩),
    fun d task hd => hhellos task (Table.mem_values.mpr ⟨d, hd⟩)⟩
  rw [hk] at hsession
  simp [hrun] at hsession

/-! ### Relays -/

/-- **A relay is spawned by `run_service`** when its `Open` is queued. -/
theorem relays_step (h : s.step e = some t) {x : ExternalId} {relay' : RelayTask}
    (hx : t.relays.lookup x = some relay') :
    (∃ relay, s.relays.lookup x = some relay ∧ relay' = { relay with state := relay'.state }) ∨
    ∃ r task session c, s.TaskAt r task session ∧ task.state = .advertising c x ∧
      relay' = ⟨task.context, r, c, .waiting⟩ ∧
      t.tasks = s.tasks.insert r { task with state := .accepting } := by
  have hkept (hrelays : t.relays = s.relays) : ∃ relay, s.relays.lookup x = some relay ∧
      relay' = { relay with state := relay'.state } := ⟨relay', hrelays ▸ hx, rfl⟩
  have hset {y relay state} (hy : s.relays.lookup y = some relay)
      (hx : (s.relays.insert y { relay with state }).lookup x = some relay') :
      ∃ relay, s.relays.lookup x = some relay ∧ relay' = { relay with state := relay'.state } := by
    rw [Table.lookup_insert_eq] at hx
    split_ifs at hx with hxy
    · obtain rfl := Option.some.inj hx
      exact ⟨relay, hxy ▸ hy, rfl⟩
    · exact ⟨relay', hx, rfl⟩
  have herase {y} (hx : (s.relays.erase y).lookup x = some relay') :
      ∃ relay, s.relays.lookup x = some relay ∧ relay' = { relay with state := relay'.state } := by
    rw [Table.lookup_erase_eq] at hx
    split_ifs at hx
    exact ⟨relay', hx, rfl⟩
  cases took_of_step h with
  | @advertised r task session c y hat hstate =>
      have hx : (s.relays.insert y ⟨task.context, r, c, .waiting⟩).lookup x = some relay' := hx
      rw [Table.lookup_insert_eq] at hx
      split_ifs at hx with hxy
      · obtain rfl := Option.some.inj hx
        exact .inr ⟨r, task, session, c, hat, hxy ▸ hstate, rfl, rfl⟩
      · exact .inl ⟨relay', hx, rfl⟩
  | received hat | gaveUp hat | relaying hat => exact .inl (hset hat.1 hx)
  | ended | relayDropped => exact .inl (herase hx)
  | @unreached a o session =>
      obtain ⟨_, _, heq⟩ := s.unreached_frame a session _ _
      exact .inl (hkept (by rw [heq]))
  | @controlled a e' session server writes =>
      obtain ⟨_, _, _, _, _, _, heq⟩ :=
        s.controlled_frame a session e' server writes (breaks e' server)
      exact .inl (hkept (by rw [heq]))
  | turnedAway | connected | greeted | contextDropped | saturated | admitted | unidentified | full
  | inserted | unadvertised | rolledBack | left | exited | abortedRollingBack | aborted | found
  | notFound | unknown | mismatched | delivered | late | helloDropped => exact .inl (hkept rfl)

/-! ### The contexts of the tasks -/

/-- Everybody works on a context that is there. -/
structure Anchored (s : Hub) : Prop where
  tasks : ∀ r task, s.tasks.lookup r = some task → s.Live task.context
  relays : ∀ x relay, s.relays.lookup x = some relay → s.Live relay.context
  hellos : ∀ d task, s.hellos.lookup d = some task → s.Live task.context

theorem live_of_held (h : s.step e = some t) (hk : s.Live k) (hheld : s.held k ≠ false) :
    t.Live k :=
  (live_step h hk).resolve_right fun hdropped => hheld hdropped.2

theorem Anchored.step (hs : Anchored s) (h : s.step e = some t) : Anchored t where
  tasks r task' hr := by
    have hold (task : ServiceTask) (hr : s.tasks.lookup r = some task) : t.Live task.context :=
      live_of_held h (hs.tasks r task hr) fun hfree => (held_eq_false hfree).2.1 r task hr rfl
    rcases tasks_step h with hkept | ⟨a, register, os, o, rfl, htasks, -, session, u, bind, ha, -⟩
    · obtain ⟨task, hr, hsame, -⟩ := hkept r task' hr
      rw [hsame.context]
      exact hold task hr
    · rw [htasks, Table.lookup_insert_eq] at hr
      split_ifs at hr
      · obtain rfl := Option.some.inj hr
        exact (live_step h ⟨session, ha⟩).resolve_right fun hdropped => nomatch hdropped.1
      · exact hold task' hr
  relays x relay' hx := by
    rcases relays_step h hx with ⟨relay, hx, heq⟩ | ⟨r, task, session, id, hat, -, rfl, -⟩
    · rw [heq]
      exact live_of_held h (hs.relays x relay hx) fun hfree =>
        (held_eq_false hfree).2.2.1 x relay hx rfl
    · exact live_of_held h (hs.tasks r task hat.1) fun hfree =>
        (held_eq_false hfree).2.1 r task hat.1 rfl
  hellos d task hd := by
    rcases hellos_step h hd with hd | ⟨-, -, -, hheld, session, hk, -⟩
    · exact live_of_held h (hs.hellos d task hd) fun hfree =>
        (held_eq_false hfree).2.2.2 d task hd rfl
    · exact live_of_held h ⟨session, hk⟩ (by simp [hheld])

theorem Anchored.init (c : HubConfig) : Anchored (init c) := by
  constructor <;> simp [Hub.init]

/-! ### Cancellation -/

/-- The control loop of the context has not returned. -/
def Runs (s : Hub) (k : ContextId) : Prop :=
  ∃ session, s.sessions.lookup k = some session ∧ session.server.phase = .running

/-- The tasks of a Session that is over have been told. -/
def Told (s : Hub) : Prop :=
  ∀ r task, s.tasks.lookup r = some task → r ∈ s.cancelled ∨ s.Runs task.context

theorem told_branch (s : Hub) (k : ContextId) (session : ServerSession) (e : ServerEvent) :
    ∀ r ∈ s.cancelled, r ∈ (s.branch k session e).1.cancelled := by
  intro r hr
  unfold branch
  split
  · split <;> exact hr
  · split
    · exact List.mem_cons_of_mem _ hr
    · exact hr
  · exact hr
  · exact hr

/-- The end of a branch: the Session goes on, or its guard tells its tasks. -/
theorem told_conclude (s : Hub) (k : ContextId) (session : ServerSession) (b : Bool) :
    (∀ r ∈ s.cancelled, r ∈ (s.conclude k session b).cancelled) ∧
    ((s.conclude k session b).Runs k ∨
      ∀ r task, s.tasks.lookup r = some task → task.context = k →
        r ∈ (s.conclude k session b).cancelled) := by
  unfold conclude
  split
  · rename_i hphase
    exact ⟨fun _ hr => hr, .inl ⟨session, AList.lookup_insert _, hphase⟩⟩
  · have hmem (r : RegistrationId) (task : ServiceTask) (hr : s.tasks.lookup r = some task)
        (hk : task.context = k) :
        r ∈ s.tasks.keys.filter fun r => (s.tasks.lookup r).any (·.context = k) := by
      refine List.mem_filter.mpr ⟨AList.mem_keys.mpr (AList.lookup_isSome.mp ?_), ?_⟩
      · rw [hr]
        rfl
      · rw [hr]
        exact decide_eq_true hk
    cases b with
    | true =>
        exact ⟨fun _ => List.mem_append_right _, .inr fun r task hr hk =>
          List.mem_append_left _ (hmem r task hr hk)⟩
    | false =>
        exact ⟨fun _ => List.mem_append_right _, .inr fun r task hr hk =>
          List.mem_append_left _ (hmem r task hr hk)⟩

/-- A cancelled task stays cancelled. -/
theorem cancelled_step (h : s.step e = some t) : ∀ r ∈ s.cancelled, r ∈ t.cancelled := by
  cases took_of_step h with
  | unreached => exact fun r hr => (told_conclude _ _ _ _).1 r hr
  | controlled => exact fun r hr => (told_conclude _ _ _ _).1 r (told_branch s _ _ _ r hr)
  | turnedAway | connected | greeted | contextDropped | saturated | admitted | unidentified | full
  | inserted | advertised | unadvertised | rolledBack | left | exited | abortedRollingBack | aborted
  | received | gaveUp | relaying | ended | relayDropped | found | notFound | unknown | mismatched
  | delivered | late | helloDropped => exact fun _ hr => hr

theorem Runs.of_insert {a : ContextId} {session : ServerSession} (hk : s.Runs k)
    (hsessions : t.sessions = s.sessions.insert a session)
    (ha : k = a → session.server.phase = .running) : t.Runs k := by
  unfold Runs
  rw [hsessions]
  simp only [Table.lookup_insert_eq]
  split_ifs with hka
  · exact ⟨session, rfl, ha hka⟩
  · exact hk

/-- **A control loop that ends tells its tasks.** -/
theorem runs_step (h : s.step e = some t) (hk : s.Runs k) :
    t.Runs k ∨ ∀ r task, t.tasks.lookup r = some task → task.context = k → r ∈ t.cancelled := by
  cases hsessions : e.isSessions with
  | false =>
      obtain ⟨session, hk, hrun⟩ := hk
      obtain ⟨session', hk', hsame⟩ := (aside_step hsessions h).forward hk
      exact .inl ⟨session', hk', hsame.phase.trans hrun⟩
  | true =>
      cases took_of_step h with
      | turnedAway => exact .inl hk
      | connected => exact .inl (hk.of_insert rfl fun _ => rfl)
      | greeted ha hbefore hrun => exact .inl (hk.of_insert rfl fun _ => hrun)
      | @unreached a o session =>
          by_cases hka : k = a
          · subst hka
            refine (told_conclude _ k _ _).2.imp_right fun htold r task hr hcontext => ?_
            obtain ⟨_, _, heq⟩ := s.unreached_frame k session _ _
            rw [heq] at hr
            exact htold r task hr hcontext
          · obtain ⟨_, _, heq⟩ := s.unreached_frame a session _ _
            rw [heq]
            exact .inl (hk.of_insert rfl fun heq => absurd heq hka)
      | @controlled a e' session server writes =>
          obtain ⟨_, _, _, _, _, _, heq⟩ :=
            s.controlled_frame a session e' server writes (breaks e' server)
          by_cases hka : k = a
          · subst hka
            refine (told_conclude _ k _ _).2.imp_right fun htold r task hr hcontext => ?_
            rw [heq] at hr
            exact htold r task hr hcontext
          · rw [heq]
            exact .inl (hk.of_insert rfl fun heq => absurd heq hka)
      | @contextDropped a session ha hfree =>
          obtain ⟨session', hk', hrun⟩ := hk
          have hka : k ≠ a := fun hka => (held_eq_false (hka ▸ hfree)).1 session' hk' hrun
          refine .inl ⟨session', ?_, hrun⟩
          show (s.sessions.erase a).lookup k = _
          rw [Table.lookup_erase_eq, if_neg hka, hk']
      | saturated | admitted | unidentified | full | inserted | advertised | unadvertised
      | rolledBack | left | exited | abortedRollingBack | aborted | received | gaveUp | relaying
      | ended | relayDropped | found | notFound | unknown | mismatched | delivered | late
      | helloDropped => cases hsessions

theorem Told.step (hs : Told s) (h : s.step e = some t) : Told t := by
  intro r task' hr
  have hruns (hk : s.Runs task'.context) : r ∈ t.cancelled ∨ t.Runs task'.context :=
    (runs_step h hk).symm.imp_left fun htold => htold r task' hr rfl
  rcases tasks_step h with hkept | ⟨a, register, os, o, rfl, htasks, -, session, u, bind, ha, -⟩
  · obtain ⟨task, hr0, hsame, -⟩ := hkept r task' hr
    rcases hs r task hr0 with hcancelled | hk
    · exact .inl (cancelled_step h r hcancelled)
    · exact hruns (hsame.context ▸ hk)
  · have hr' := hr
    rw [htasks, Table.lookup_insert_eq] at hr'
    split_ifs at hr' with hnew
    · obtain rfl := Option.some.inj hr'
      -- only a running loop registers
      cases took_of_step h with
      | @controlled a e' session server writes ha hgreeted hbranch hstep =>
          have hrun := Server.running_of_branch hbranch hstep
          exact hruns ⟨session, ha, hrun⟩
    · rcases hs r task' hr' with hcancelled | hk
      · exact .inl (cancelled_step h r hcancelled)
      · exact hruns hk

theorem Told.init (c : HubConfig) : Told (init c) := by
  intro r task hr
  cases hr

/-! ### The streams on their way -/

/-- Somebody will take the stream sent to the external connection. -/
def Awaits (s : Hub) (x : ExternalId) : Prop :=
  (∃ relay, s.relays.lookup x = some relay ∧ relay.state = .waiting) ∨
  ∃ r task c, s.tasks.lookup r = some task ∧ task.state.carried = some (c, x)

theorem receiving_iff {x : ExternalId} : s.receiving x = true ↔ s.Awaits x := by
  unfold receiving Awaits
  rw [Bool.or_eq_true]
  refine or_congr ?_ ?_
  · rw [Option.any_eq_true]
    simp
  · rw [List.any_eq_true]
    constructor
    · rintro ⟨task, htask, hcarried⟩
      obtain ⟨r, hr⟩ := Table.mem_values.mp htask
      refine ⟨r, task, ?_⟩
      cases hstate : task.state with
      | advertising id y | rollingBack id y =>
          rw [hstate] at hcarried
          exact ⟨id, hr, by rw [of_decide_eq_true hcarried]; rfl⟩
      | accepting | admitted | leaving =>
          rw [hstate] at hcarried
          cases hcarried
    · rintro ⟨r, task, id, hr, hcarried⟩
      refine ⟨task, Table.mem_values.mpr ⟨r, hr⟩, ?_⟩
      cases hstate : task.state with
      | advertising id y | rollingBack id y =>
          rw [hstate] at hcarried
          cases hcarried
          exact decide_eq_true rfl
      | accepting | admitted | leaving =>
          rw [hstate] at hcarried
          cases hcarried

/-- Every stream in an inbox is awaited. -/
def Awaited (s : Hub) : Prop := ∀ x d, s.inbox.lookup x = some d → s.Awaits x

theorem Awaits.of_lookup {x : ExternalId} (hx : s.Awaits x)
    (hrelay : t.relays.lookup x = s.relays.lookup x)
    (htasks : ∀ r task id, s.tasks.lookup r = some task → task.state.carried = some (id, x) →
      t.tasks.lookup r = some task) : t.Awaits x := by
  rcases hx with ⟨relay, hrelay', hstate⟩ | ⟨r, task, id, hr, hcarried⟩
  · exact .inl ⟨relay, hrelay.trans hrelay', hstate⟩
  · exact .inr ⟨r, task, id, htasks r task id hr hcarried, hcarried⟩

/-- A task moves that does not work for the external connection. -/
theorem Awaits.of_move {x : ExternalId} {r : RegistrationId} {task : ServiceTask} (hx : s.Awaits x)
    (hr : s.tasks.lookup r = some task) (hother : ∀ id, task.state.carried ≠ some (id, x))
    (htasks : ∀ r', r' ≠ r → t.tasks.lookup r' = s.tasks.lookup r')
    (hrelay : t.relays.lookup x = s.relays.lookup x) : t.Awaits x := by
  refine hx.of_lookup hrelay fun r' task' id hr' hcarried => ?_
  have hne : r' ≠ r := by
    rintro rfl
    obtain rfl := Option.some.inj (hr.symm.trans hr')
    exact hother id hcarried
  rw [htasks r' hne, hr']

theorem Awaits.of_set {x : ExternalId} {r : RegistrationId} {task task' : ServiceTask}
    (hx : s.Awaits x) (hr : s.tasks.lookup r = some task)
    (hother : ∀ id, task.state.carried ≠ some (id, x)) (htasks : t.tasks = s.tasks.insert r task')
    (hrelay : t.relays.lookup x = s.relays.lookup x) : t.Awaits x := by
  refine hx.of_move hr hother (fun r' hne => ?_) hrelay
  rw [htasks, Table.lookup_insert_eq, if_neg hne]

theorem Awaits.of_erase {x : ExternalId} {r : RegistrationId} {task : ServiceTask}
    (hx : s.Awaits x) (hr : s.tasks.lookup r = some task)
    (hother : ∀ id, task.state.carried ≠ some (id, x)) (htasks : t.tasks = s.tasks.erase r)
    (hrelay : t.relays.lookup x = s.relays.lookup x) : t.Awaits x := by
  refine hx.of_move hr hother (fun r' hne => ?_) hrelay
  rw [htasks, Table.lookup_erase_eq, if_neg hne]

/-- **Whoever stops waiting for a stream drops it.** -/
theorem awaits_step (hbelow : ∀ r task, s.tasks.lookup r = some task → r < s.next)
    (h : s.step e = some t) {x : ExternalId} (hx : s.Awaits x) :
    t.Awaits x ∨ t.inbox.lookup x = none := by
  have hempty {y : ExternalId} (hxy : x = y) : (s.inbox.erase y).lookup x = none := by
    rw [Table.lookup_erase_eq, if_pos hxy]
  have hidle {state : TaskState} (hstate : state.carried = none) :
      ∀ id, state.carried ≠ some (id, x) := by
    intro id hcarried
    cases hstate.symm.trans hcarried
  -- a task that works for another connection
  have hforeign {state : TaskState} {id : ConnectionId} {y : ExternalId}
      (hstate : state.carried = some (id, y)) (hxy : x ≠ y) :
      ∀ id', state.carried ≠ some (id', x) := by
    intro id' hcarried
    cases hstate.symm.trans hcarried
    exact hxy rfl
  -- a relay of another connection
  have hrelays {y : ExternalId} {relay : RelayTask} (hxy : x ≠ y) :
      (s.relays.insert y relay).lookup x = s.relays.lookup x ∧
      (s.relays.erase y).lookup x = s.relays.lookup x := by
    rw [Table.lookup_insert_eq, Table.lookup_erase_eq, if_neg hxy, if_neg hxy]
    exact ⟨rfl, rfl⟩
  cases took_of_step h with
  | unreached =>
      obtain ⟨_, _, heq⟩ := s.unreached_frame _ _ _ _
      rw [heq]
      exact .inl hx
  | @controlled a e' session server writes =>
      obtain ⟨_, _, _, _, _, _, heq⟩ :=
        s.controlled_frame a session e' server writes (breaks e' server)
      rw [heq]
      refine .inl (hx.of_lookup rfl fun r task id hr _ => ?_)
      rcases s.branch_tasks a session e' with ⟨htasks, -⟩ | ⟨register, os, o, -, htasks, -⟩
      · exact htasks ▸ hr
      · show (s.branch a session e').1.tasks.lookup r = some task
        rw [htasks, Table.lookup_insert_eq, if_neg (hbelow r task hr).ne, hr]
  | admitted hat hstate | full hat hstate | inserted hat hstate | left hat hstate =>
      exact .inl (hx.of_set hat.1 (hidle (by rw [hstate]; rfl)) rfl rfl)
  | @advertised r task session id y hat hstate =>
      have hcarried : task.state.carried = some (id, y) := by rw [hstate]; rfl
      by_cases hxy : x = y
      · subst hxy
        exact .inl (.inl ⟨_, AList.lookup_insert _, rfl⟩)
      · exact .inl (hx.of_set hat.1 (hforeign hcarried hxy) rfl (hrelays hxy).1)
  | @unadvertised r task session id y hat hstate =>
      have hcarried : task.state.carried = some (id, y) := by rw [hstate]; rfl
      by_cases hxy : x = y
      · exact .inl (.inr ⟨r, _, id, AList.lookup_insert _, by rw [hxy]; rfl⟩)
      · exact .inl (hx.of_set hat.1 (hforeign hcarried hxy) rfl rfl)
  | @rolledBack r task session id y hat hstate =>
      have hcarried : task.state.carried = some (id, y) := by rw [hstate]; rfl
      by_cases hxy : x = y
      · exact .inr (hempty hxy)
      · exact .inl (hx.of_set hat.1 (hforeign hcarried hxy) rfl rfl)
  | exited hat hstate => exact .inl (hx.of_erase hat.1 (hidle (by rw [hstate]; rfl)) rfl rfl)
  | @abortedRollingBack r task session id y hat hstate =>
      have hcarried : task.state.carried = some (id, y) := by rw [hstate]; rfl
      by_cases hxy : x = y
      · exact .inr (hempty hxy)
      · exact .inl (hx.of_erase hat.1 (hforeign hcarried hxy) rfl rfl)
  | @aborted r task session hat hadvertising hrolling =>
      refine .inl (hx.of_erase hat.1 (fun id hcarried => ?_) rfl rfl)
      cases hstate : task.state with
      | advertising id y => exact hadvertising id y hstate
      | rollingBack id y => exact hrolling id y hstate
      | accepting | admitted | leaving =>
          rw [hstate] at hcarried
          cases hcarried
  | @received y | @gaveUp y | @relaying y =>
      by_cases hxy : x = y
      · exact .inr (hempty hxy)
      · exact .inl (hx.of_lookup (hrelays hxy).1 fun r task id hr _ => hr)
  | @ended y relay | @relayDropped y relay =>
      by_cases hxy : x = y
      · exact .inr (hempty hxy)
      · exact .inl (hx.of_lookup (@hrelays y relay hxy).2 fun r task id hr _ => hr)
  | turnedAway | connected | greeted | contextDropped | saturated | unidentified | found | notFound
  | unknown | mismatched | delivered | late | helloDropped => exact .inl hx

theorem inbox_step (h : s.step e = some t) {x : ExternalId} {d : StreamId}
    (hx : t.inbox.lookup x = some d) : s.inbox.lookup x = some d ∨ s.Awaits x := by
  have herase {y : ExternalId} (hx : (s.inbox.erase y).lookup x = some d) :
      s.inbox.lookup x = some d := by
    rw [Table.lookup_erase_eq] at hx
    split_ifs at hx
    exact hx
  cases took_of_step h with
  | unreached =>
      obtain ⟨_, _, heq⟩ := s.unreached_frame _ _ _ _
      rw [heq] at hx
      exact .inl hx
  | controlled =>
      obtain ⟨_, _, _, _, _, _, heq⟩ := s.controlled_frame _ _ _ _ _ _
      rw [heq] at hx
      exact .inl hx
  | rolledBack | abortedRollingBack | received | gaveUp | relaying | ended | relayDropped =>
      exact .inl (herase hx)
  | @delivered d' now task session entry hd hk hentry hservice hnow hreceiving =>
      have hx : (s.inbox.insert entry.dataTx d').lookup x = some d := hx
      rw [Table.lookup_insert_eq] at hx
      split_ifs at hx with hxy
      · exact .inr (receiving_iff.mp (hxy ▸ hreceiving))
      · exact .inl hx
  | turnedAway | connected | greeted | contextDropped | saturated | admitted | unidentified | full
  | inserted | advertised | unadvertised | left | exited | aborted | found | notFound | unknown
  | mismatched | late | helloDropped => exact .inl hx

theorem Awaited.step (hs : Awaited s)
    (hbelow : ∀ r task, s.tasks.lookup r = some task → r < s.next) (h : s.step e = some t) :
    Awaited t := by
  intro x d hx
  have hbefore : s.Awaits x := (inbox_step h hx).elim (hs x d) id
  refine (awaits_step hbelow h hbefore).resolve_right fun hnone => ?_
  cases hnone.symm.trans hx

theorem Awaited.init (c : HubConfig) : Awaited (init c) := by
  intro x d hx
  cases hx

/-! ### The gauge of the relays -/

/-- A task and a relay never work for one external connection. -/
def Apart (s : Hub) : Prop :=
  ∀ r task id x, s.tasks.lookup r = some task → task.state.carried = some (id, x) →
    s.relays.lookup x = none

/-- `active_connections` is the number of relays. -/
def Gauged (s : Hub) : Prop := s.gauges.activeConnections = s.relays.size % usizeValues

/-- A task comes to work for an external connection when it enters its id. -/
theorem carried_step (h : s.step e = some t) {r : RegistrationId} {task' : ServiceTask}
    {id : ConnectionId} {x : ExternalId} (hr : t.tasks.lookup r = some task')
    (hcarried : task'.state.carried = some (id, x)) :
    (∃ task, s.tasks.lookup r = some task ∧ task.state.carried = some (id, x)) ∨ x = s.next := by
  have hset {a : RegistrationId} {task : ServiceTask}
      (hr : (s.tasks.insert a task).lookup r = some task')
      (htask : task.state.carried = some (id, x) →
        (∃ old, s.tasks.lookup a = some old ∧ old.state.carried = some (id, x)) ∨ x = s.next) :
      (∃ old, s.tasks.lookup r = some old ∧ old.state.carried = some (id, x)) ∨ x = s.next := by
    rw [Table.lookup_insert_eq] at hr
    split_ifs at hr with hra
    · obtain rfl := Option.some.inj hr
      exact hra ▸ htask hcarried
    · exact .inl ⟨task', hr, hcarried⟩
  have herase {a : RegistrationId} (hr : (s.tasks.erase a).lookup r = some task') :
      (∃ old, s.tasks.lookup r = some old ∧ old.state.carried = some (id, x)) ∨ x = s.next := by
    rw [Table.lookup_erase_eq] at hr
    split_ifs at hr
    exact .inl ⟨task', hr, hcarried⟩
  cases took_of_step h with
  | unreached =>
      obtain ⟨_, _, heq⟩ := s.unreached_frame _ _ _ _
      rw [heq] at hr
      exact .inl ⟨task', hr, hcarried⟩
  | @controlled a e' session server writes =>
      obtain ⟨_, _, _, _, _, _, heq⟩ :=
        s.controlled_frame a session e' server writes (breaks e' server)
      rw [heq] at hr
      rcases s.branch_tasks a session e' with ⟨htasks, -⟩ | ⟨register, os, o, -, htasks, -⟩
      · exact .inl ⟨task', htasks ▸ hr, hcarried⟩
      · have hr : (s.branch a session e').1.tasks.lookup r = some task' := hr
        rw [htasks] at hr
        exact hset hr fun hnone => nomatch hnone
  | admitted | full | advertised | rolledBack | left => exact hset hr fun hnone => nomatch hnone
  | inserted =>
      refine hset hr fun hnew => .inr ?_
      cases hnew
      rfl
  | @unadvertised a task session id' y hat hstate =>
      refine hset hr fun hnew => .inl ⟨task, hat.1, ?_⟩
      rw [hstate]
      exact hnew
  | exited | abortedRollingBack | aborted => exact herase hr
  | turnedAway | connected | greeted | contextDropped | saturated | unidentified | received | gaveUp
  | relaying | ended | relayDropped | found | notFound | unknown | mismatched | delivered | late
  | helloDropped => exact .inl ⟨task', hr, hcarried⟩

theorem Apart.step (hs : Apart s) (hsingle : Single s) (h : s.step e = some t) : Apart t := by
  intro r task' id x hr hcarried
  -- whoever works for `x` has it in the log, which has it once
  have hissued {r : RegistrationId} {task : ServiceTask} {id : ConnectionId}
      (hr : s.tasks.lookup r = some task) (hcarried : task.state.carried = some (id, x)) :
      ⟨id, task.context, r, x⟩ ∈ s.issued := hsingle.bears _ (.inl ⟨task, hr, rfl, hcarried⟩)
  by_contra hrelay
  obtain ⟨relay', hx⟩ := Option.ne_none_iff_exists'.mp hrelay
  rcases relays_step h hx with ⟨relay, hx, -⟩ | ⟨r', advertiser, session, id', hat, hstate, -, htasks⟩
  · rcases carried_step h hr hcarried with ⟨task, hr, hcarried⟩ | rfl
    · cases (hs r task id x hr hcarried).symm.trans hx
    · have hmem := hsingle.bears ⟨relay.connection, relay.context, relay.task, s.next⟩
        (.inr ⟨relay, hx, rfl, rfl, rfl⟩)
      exact lt_irrefl _ (hsingle.numbered _ hmem)
  · have hmem' := hissued hat.1 (by rw [hstate]; rfl)
    rcases carried_step h hr hcarried with ⟨task, hr0, hcarried0⟩ | rfl
    · have heq := List.inj_on_of_nodup_map hsingle.externals (hissued hr0 hcarried0) hmem' rfl
      obtain rfl : r = r' := congrArg Issue.registration heq
      rw [htasks, AList.lookup_insert] at hr
      obtain rfl := Option.some.inj hr
      cases hcarried
    · exact lt_irrefl _ (hsingle.numbered _ hmem')

theorem Apart.init (c : HubConfig) : Apart (init c) := by
  intro r task id x hr
  cases hr

theorem Gauged.step (hs : Gauged s) (hapart : Apart s) (h : s.step e = some t) : Gauged t := by
  have hkept (hsize : t.relays.size = s.relays.size)
      (hgauge : t.gauges.activeConnections = s.gauges.activeConnections) : Gauged t := by
    unfold Gauged
    rw [hsize, hgauge]
    exact hs
  have hended {x : ExternalId} {relay : RelayTask} (hx : s.relays.lookup x = some relay)
      (hsize : t.relays = s.relays.erase x)
      (hgauge : t.gauges.activeConnections = fetchSub s.gauges.activeConnections 1) :
      Gauged t := by
    unfold Gauged at hs ⊢
    rw [← Table.size_erase hx] at hs
    rw [hsize, hgauge, hs, fetchSub_mod _ 1 (by decide)]
  cases took_of_step h with
  | unreached =>
      obtain ⟨_, _, heq⟩ := s.unreached_frame _ _ _ _
      rw [heq]
      exact hs
  | controlled =>
      obtain ⟨_, _, _, _, _, _, heq⟩ := s.controlled_frame _ _ _ _ _ _
      rw [heq]
      exact hs
  | @advertised r task session id x hat hstate =>
      have hfree := hapart r task id x hat.1 (by rw [hstate]; rfl)
      show fetchAdd s.gauges.activeConnections 1 = Table.size (s.relays.insert x _) % usizeValues
      rw [hs, Table.size_insert, Table.erase_eq_self hfree, fetchAdd_mod]
  | received hat | gaveUp hat | relaying hat => exact hkept (size_setRelay hat.1 _) rfl
  | ended hat | relayDropped hat => exact hended hat.1 rfl rfl
  | turnedAway | connected | greeted | contextDropped | saturated | admitted | unidentified | full
  | inserted | unadvertised | rolledBack | left | exited | abortedRollingBack | aborted | found
  | notFound | unknown | mismatched | delivered | late | helloDropped => exact hs

theorem Gauged.init (c : HubConfig) : Gauged (init c) := rfl

/-! ### All of it -/

/-- What holds throughout a run with fresh ids. -/
structure Staffed (c : HubConfig) (s : Hub) : Prop where
  use : SingleUse c s
  housed : Housed s
  tabled : Tabled c s
  anchored : Anchored s
  told : Told s
  awaited : Awaited s
  apart : Apart s
  gauged : Gauged s

theorem Staffed.below (hs : Staffed c s) {r : RegistrationId} {task : ServiceTask}
    (hr : s.tasks.lookup r = some task) : r < s.next :=
  hs.housed.below r task.context task.serviceId (.task task hr rfl rfl)

theorem Staffed.step (hs : Staffed c s) (hfresh : s.fresh e = true) (h : s.step e = some t) :
    Staffed c t where
  use := hs.use.step hfresh h
  housed := hs.housed.step hs.use h
  tabled := hs.tabled.step (hs.use.registered.unused hfresh) h
  anchored := hs.anchored.step h
  told := hs.told.step h
  awaited := hs.awaited.step (fun _ _ => hs.below) h
  apart := hs.apart.step hs.use.single h
  gauged := hs.gauged.step hs.apart h

theorem Staffed.init (c : HubConfig) : Staffed c (init c) :=
  ⟨SingleUse.init c, Housed.init c, Tabled.init c, Anchored.init c, Told.init c, Awaited.init c,
    Apart.init c, Gauged.init c⟩

theorem staffed_exec {es : List HubEvent}
    (hfresh : AllSteps Hub.step (fun s e => s.fresh e = true) (Hub.init c) es)
    (hrun : exec Hub.step (Hub.init c) es = some s) : Staffed c s :=
  exec_inv (fun _ _ _ hs hf h => hs.step hf h) (Staffed.init c) hfresh hrun

/-- An external connection has been given an id, and no `Open` is queued yet. -/
def accepted : Hub :=
  (exec step (init smallHub) (acceptOne sampleId sampleConnection)).getD (init smallHub)

theorem exec_accepted :
    exec step (init smallHub) (acceptOne sampleId sampleConnection) = some accepted := by
  obtain ⟨t, ht⟩ : ∃ t, exec step (init smallHub) (acceptOne sampleId sampleConnection) = some t :=
    Option.isSome_iff_exists.mp (by decide +kernel)
  rw [accepted, ht, Option.getD_some]

end Hub

end Eggtunnel
