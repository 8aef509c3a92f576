/-
Eggtunnel/Ceilings.lean

What one server can be made to hold.

Nothing that a client or an external peer does takes the server beyond its
configured limits: the Sessions, the Services of a Session and of all of them,
the pending connections and the connection permits of a Session, and the frames
in a control queue.  A permit passes from the `run_service` task that takes it
to the relay it spawns, so the permits that are out are counted at both.
-/
import Eggtunnel.ServerQueue
import Eggtunnel.Workers

namespace Eggtunnel

/-! ### The control queue -/

theorem Server.queue_le_step {s t : Server} {e : ServerEvent} {writes : List Write}
    (he : e.isBranch = true) (hs : s.queue.length ≤ s.policy.limits.controlQueue)
    (h : s.step e = some (t, writes)) : t.queue.length ≤ t.policy.limits.controlQueue := by
  obtain ⟨hqueue, -⟩ := traffic_of_step he h
  rw [(fixed_step h).policy]
  cases e with
  | drainQueued deadlineMs =>
      have hqueue : t.queue = s.queue
          ++ (if s.queue.length < s.policy.limits.controlQueue then
              some (Message.drain ⟨deadlineMs⟩) else none).toList := hqueue
      rw [hqueue, List.length_append]
      split_ifs with hroom
      · exact Nat.succ_le_of_lt hroom
      · exact hs
  | outbound o =>
      have hqueue : t.queue = s.queue.tail ++ [] := hqueue
      rw [hqueue, List.append_nil, List.length_tail]
      exact (Nat.sub_le _ _).trans hs
  | incoming | readFailed | cancelled | idle | opened | childEnded | elsewhere =>
      have hqueue : t.queue = s.queue ++ [] := hqueue
      rw [hqueue, List.append_nil]
      exact hs

namespace Hub

variable {s t : Hub} {e : HubEvent} {k : ContextId} {c : HubConfig}

/-- Every control queue keeps to its bound. -/
def QueuesFit (s : Hub) : Prop :=
  ∀ k session, s.sessions.lookup k = some session →
    session.server.queue.length ≤ session.server.policy.limits.controlQueue

theorem QueuesFit.of_insert {a : ContextId} {session : ServerSession} (hs : QueuesFit s)
    (hsessions : t.sessions = s.sessions.insert a session)
    (hsession : session.server.queue.length ≤ session.server.policy.limits.controlQueue) :
    QueuesFit t := by
  intro k session' hk
  rw [hsessions, Table.lookup_insert_eq] at hk
  split_ifs at hk
  · obtain rfl := Option.some.inj hk
    exact hsession
  · exact hs k session' hk

theorem QueuesFit.of_same {a : ContextId} {session session' : ServerSession} (hs : QueuesFit s)
    (hk : s.sessions.lookup a = some session) (hsessions : t.sessions = s.sessions.insert a session')
    (hqueue : session'.server.queue = session.server.queue)
    (hpolicy : session'.server.policy = session.server.policy) : QueuesFit t :=
  hs.of_insert hsessions (by rw [hqueue, hpolicy]; exact hs a session hk)

theorem QueuesFit.step (hs : QueuesFit s) (h : s.step e = some t) : QueuesFit t := by
  cases took_of_step h with
  | connected => exact hs.of_insert rfl (Nat.zero_le _)
  | greeted hk => exact hs.of_same hk rfl rfl rfl
  | @unreached a o session error hk =>
      obtain ⟨_, _, heq⟩ := s.unreached_frame a session ((s.lent session).finish (.error error)) _
      exact hs.of_same hk (congrArg sessions heq) rfl rfl
  | @controlled a e session server writes hk hgreeted hbranch hstep =>
      obtain ⟨_, _, _, _, _, _, heq⟩ :=
        s.controlled_frame a session e server writes (breaks e server)
      refine hs.of_insert (congrArg sessions heq) ?_
      exact Server.queue_le_step (s := s.lent session) hbranch (hs a session hk) hstep
  | @contextDropped a session hk =>
      intro k session' hk'
      have hk' : (s.sessions.erase a).lookup k = some session' := hk'
      rw [Table.lookup_erase_eq] at hk'
      split_ifs at hk'
      exact hs k session' hk'
  | @advertised r task session id x hat =>
      refine hs.of_insert rfl ?_
      dsimp only
      rw [(Server.fixed_trySend _ _).policy, Server.queue_trySend]
      split_ifs with hroom
      · rw [List.length_append]
        exact Nat.succ_le_of_lt hroom
      · exact hs task.context session hat.2
  | inserted hat | rolledBack hat | exited hat | abortedRollingBack hat | aborted hat | relaying hat
  | ended hat => exact hs.of_same hat.2 rfl rfl rfl
  | unknown _ hk | mismatched _ hk | delivered _ hk | late _ hk =>
      exact hs.of_same hk rfl rfl rfl
  | turnedAway | saturated | admitted | unidentified | full | unadvertised | left | received | gaveUp
  | relayDropped | found | notFound | helloDropped => exact hs

/-! ### The connection permits -/

/-- The permits of the context `k` that the task holds: one or none. -/
def taskPermits (k : ContextId) (task : ServiceTask) : Nat :=
  (task.context = k && task.state.holdsPermit).toNat

/-- The permits of a context that a relay holds. -/
def relayPermits (k : ContextId) (relay : RelayTask) : Nat := (decide (relay.context = k)).toNat

theorem taskPermits_idle {task : ServiceTask} (hstate : task.state.holdsPermit = false) :
    taskPermits k task = 0 := by
  rw [taskPermits, hstate, Bool.and_false]
  rfl

theorem taskPermits_holding {task : ServiceTask} (hstate : task.state.holdsPermit = true) :
    taskPermits k task = (decide (task.context = k)).toNat := by
  rw [taskPermits, hstate, Bool.and_true]

/-- The permits that are out, counted at their holders. -/
theorem permitsTaken_eq (s : Hub) (k : ContextId) :
    s.permitsTaken k = s.tasks.total (taskPermits k) + s.relays.total (relayPermits k) := by
  rw [permitsTaken, Table.length_filter_values, Table.length_filter_values]
  rfl

/-- The tasks and relays of a Session hold no more permits than there are. -/
def Permitted (s : Hub) : Prop :=
  ∀ k, s.permitsTaken k ≤ s.policy.limits.activeConnectionsPerSession

theorem permitsTaken_congr (htasks : t.tasks = s.tasks) (hrelays : t.relays = s.relays) :
    t.permitsTaken k = s.permitsTaken k := by
  rw [permitsTaken, permitsTaken, htasks, hrelays]

section

variable {r : RegistrationId} {task task' : ServiceTask} {x : ExternalId} {relay relay' : RelayTask}

theorem permitsTaken_setTask (hr : s.tasks.lookup r = some task)
    (htasks : t.tasks = s.tasks.insert r task') (hrelays : t.relays = s.relays) :
    t.permitsTaken k + taskPermits k task = s.permitsTaken k + taskPermits k task' := by
  have htotal := Table.total_replace (f := taskPermits k) hr task'
  rw [permitsTaken_eq, permitsTaken_eq, htasks, hrelays]
  omega

/-- A task that moves on without a permit, or with the one it has, takes none. -/
theorem permitsTaken_move (hr : s.tasks.lookup r = some task)
    (hpermits : taskPermits k task' ≤ taskPermits k task)
    (htasks : t.tasks = s.tasks.insert r task') (hrelays : t.relays = s.relays) :
    t.permitsTaken k ≤ s.permitsTaken k := by
  have hset := permitsTaken_setTask (k := k) hr htasks hrelays
  omega

theorem permitsTaken_erase (htasks : t.tasks = s.tasks.erase r) (hrelays : t.relays = s.relays) :
    t.permitsTaken k ≤ s.permitsTaken k := by
  rw [permitsTaken_eq, permitsTaken_eq, htasks, hrelays]
  exact Nat.add_le_add_right (Table.total_erase_le _ _) _

theorem permitsTaken_setRelay (hx : s.relays.lookup x = some relay) (htasks : t.tasks = s.tasks)
    (hrelays : t.relays = s.relays.insert x relay') (hcontext : relay'.context = relay.context) :
    t.permitsTaken k ≤ s.permitsTaken k := by
  have htotal := Table.total_replace (f := relayPermits k) hx relay'
  have hsame : relayPermits k relay' = relayPermits k relay := by
    rw [relayPermits, relayPermits, hcontext]
  rw [permitsTaken_eq, permitsTaken_eq, htasks, hrelays]
  omega

theorem permitsTaken_endRelay (htasks : t.tasks = s.tasks)
    (hrelays : t.relays = s.relays.erase x) : t.permitsTaken k ≤ s.permitsTaken k := by
  rw [permitsTaken_eq, permitsTaken_eq, htasks, hrelays]
  exact Nat.add_le_add_left (Table.total_erase_le _ _) _

/-- The task hands its permit to the relay. -/
theorem permitsTaken_spawn (hr : s.tasks.lookup r = some task)
    (hbefore : task.state.holdsPermit = true) (hafter : task'.state.holdsPermit = false)
    (hcontext : relay.context = task.context) (htasks : t.tasks = s.tasks.insert r task')
    (hrelays : t.relays = s.relays.insert x relay) : t.permitsTaken k ≤ s.permitsTaken k := by
  have htask := Table.total_replace (f := taskPermits k) hr task'
  have hrelay := Table.total_insert (relayPermits k) x relay s.relays
  have herase : Table.total (relayPermits k) (s.relays.erase x) ≤ s.relays.total (relayPermits k) :=
    Table.total_erase_le _ _
  have hsame : relayPermits k relay = taskPermits k task := by
    rw [taskPermits_holding hbefore, relayPermits, hcontext]
  rw [taskPermits_idle hafter] at htask
  rw [permitsTaken_eq, permitsTaken_eq, htasks, hrelays]
  omega

end

/-- **A permit is taken by an accept**, and only while there is one. -/
theorem permitsTaken_step (h : s.step e = some t) (k : ContextId) :
    t.permitsTaken k ≤ s.permitsTaken k ∨
      (t.permitsTaken k = s.permitsTaken k + 1 ∧
        s.permitsTaken k < s.policy.limits.activeConnectionsPerSession) := by
  cases took_of_step h with
  | unreached =>
      obtain ⟨_, _, heq⟩ := s.unreached_frame _ _ _ _
      exact .inl (permitsTaken_congr (congrArg tasks heq) (congrArg relays heq)).le
  | @controlled a e session server writes =>
      obtain ⟨_, _, _, _, _, _, heq⟩ :=
        s.controlled_frame a session e server writes (breaks e server)
      rw [heq]
      left
      rcases s.branch_tasks a session e with ⟨hsame, -⟩ | ⟨register, os, o, -, hnew, -⟩
      · exact Nat.le_of_eq (permitsTaken_congr (by exact hsame) rfl)
      · -- a new task holds no permit
        rw [permitsTaken_eq, permitsTaken_eq]
        refine Nat.add_le_add_right ?_ _
        dsimp only
        rw [hnew, Table.total_insert, taskPermits_idle rfl, Nat.zero_add]
        exact Table.total_erase_le _ _
  | @admitted r id task session hat hstate hroom =>
      have hset := permitsTaken_setTask (k := k) (t := { s with
        generated := id :: s.generated }.setTask r task (.admitted id)) hat.1 rfl rfl
      rw [taskPermits_idle (by rw [hstate]; rfl), taskPermits_holding rfl] at hset
      by_cases hk : task.context = k
      · rw [decide_eq_true hk] at hset
        exact .inr ⟨hset, hk ▸ hroom⟩
      · rw [decide_eq_false hk] at hset
        exact .inl hset.le
  | full hat | rolledBack hat | left hat =>
      refine .inl (permitsTaken_move hat.1 ?_ rfl rfl)
      rw [taskPermits_idle rfl]
      exact Nat.zero_le _
  | inserted hat hstate | unadvertised hat hstate =>
      refine .inl (permitsTaken_move hat.1 ?_ rfl rfl)
      rw [taskPermits_holding rfl, taskPermits_holding (by rw [hstate]; rfl)]
  | advertised hat hstate =>
      exact .inl (permitsTaken_spawn hat.1 (by rw [hstate]; rfl) rfl rfl rfl rfl)
  | exited | abortedRollingBack | aborted => exact .inl (permitsTaken_erase rfl rfl)
  | received hat | gaveUp hat | relaying hat =>
      exact .inl (permitsTaken_setRelay hat.1 rfl rfl rfl)
  | ended | relayDropped => exact .inl (permitsTaken_endRelay rfl rfl)
  | turnedAway | connected | greeted | contextDropped | saturated | unidentified | found | notFound
  | unknown | mismatched | delivered | late | helloDropped => exact .inl le_rfl

theorem Permitted.step (hs : Permitted s) (h : s.step e = some t) : Permitted t := by
  intro k
  rw [(steady_step h).policy]
  rcases permitsTaken_step h k with hle | ⟨heq, hroom⟩
  · exact hle.trans (hs k)
  · exact heq ▸ hroom

/-! ### All limits -/

/-- What a run with fresh ids keeps to. -/
structure Capped (c : HubConfig) (s : Hub) : Prop where
  staffed : Staffed c s
  queued : QueuesFit s
  permitted : Permitted s

theorem Capped.step (hs : Capped c s) (hfresh : s.fresh e = true) (h : s.step e = some t) :
    Capped c t :=
  ⟨hs.staffed.step hfresh h, hs.queued.step h, hs.permitted.step h⟩

theorem Capped.init (c : HubConfig) : Capped c (init c) where
  staffed := Staffed.init c
  queued k session hk := by cases hk
  permitted k := by
    rw [permitsTaken_eq]
    exact Nat.zero_le _

/-- The Services of all Sessions together. -/
theorem Tabled.services_le (hs : Tabled c s) :
    s.counters.services ≤ min c.bindPolicy.maxServicesPerSession c.policy.limits.servicesPerSession
      * c.policy.limits.sessions := by
  rw [hs.shared.filed.gauge, ← Server.length_index]
  refine (hs.shared.filed.indexed.length_le s.registry.keys _ ?_ ?_).trans
    (Nat.mul_le_mul_left _ ((List.length_map _).le.trans hs.shared.limit))
  · intro id service hmem
    obtain ⟨a, hreg⟩ := registry_of_mem_serviceKeys hmem
    rw [← AList.mem_keys, ← AList.lookup_isSome, hreg]
    rfl
  · intro id
    rcases hreg : s.registry.lookup id with - | a
    · rw [serviceKeys, hreg]
      exact Nat.zero_le _
    · obtain ⟨session, ha, -, hrun⟩ := hs.registered.running id a hreg
      have htidy := hs.tidy a session ha
      have hsize := (htidy.named hrun).size
      rw [Server.capacity, htidy.policy, htidy.bindPolicy] at hsize
      rw [serviceKeys, hreg, Option.bind_some, ha]
      exact (List.length_map _).le.trans hsize

/-- **No run takes the server beyond its limits.**  Whatever clients, external
peers and data connections do,

* no more Sessions are registered than `limits.sessions`, and the Services of
  all of them are no more than the Services one may have, times that;
* each Session has at most `pending_per_session` connections pending and
  `control_queue` frames queued;
* and its tasks and relays, also those that outlive its control loop, hold at
  most `active_connections_per_session` connections. -/
theorem within_limits (c : HubConfig) (es : List HubEvent) (s : Hub)
    (hfresh : AllSteps step (fun s e => s.fresh e = true) (init c) es)
    (hrun : exec step (init c) es = some s) :
    s.registry.size ≤ c.policy.limits.sessions ∧
    s.counters.sessions ≤ c.policy.limits.sessions ∧
    s.counters.services ≤ min c.bindPolicy.maxServicesPerSession c.policy.limits.servicesPerSession
      * c.policy.limits.sessions ∧
    (∀ k session, s.sessions.lookup k = some session →
      session.pending.size ≤ c.policy.limits.pendingPerSession ∧
      session.server.queue.length ≤ c.policy.limits.controlQueue) ∧
    (∀ k, s.permitsTaken k ≤ c.policy.limits.activeConnectionsPerSession) ∧
    ∀ k, (s.relays.values.filter (·.context = k)).length
      ≤ c.policy.limits.activeConnectionsPerSession := by
  have hs : Capped c s :=
    exec_inv (fun _ _ _ hs hf h => hs.step hf h) (Capped.init c) hfresh hrun
  have htabled := hs.staffed.tabled
  have hpermits (k : ContextId) :
      s.permitsTaken k ≤ c.policy.limits.activeConnectionsPerSession :=
    htabled.policy ▸ hs.permitted k
  refine ⟨htabled.shared.limit, htabled.shared.guards.le.trans htabled.shared.limit,
    htabled.services_le, fun k session hk => ⟨?_, ?_⟩, hpermits, fun k => ?_⟩
  · exact hs.staffed.use.reconciled.balanced.bounded k _ (books_eq_some hk)
  · exact (htabled.tidy k session hk).policy ▸ hs.queued k session hk
  · exact (Nat.le_add_left _ _).trans (hpermits k)

theorem within_limits_after_accept :
    exec step (init smallHub) (acceptOne sampleId sampleConnection) = some accepted ∧
    accepted.permitsTaken 0 = 1 ∧ 1 ≤ smallHub.policy.limits.activeConnectionsPerSession := by
  have hone : accepted.permitsTaken 0 = 1 := by decide +kernel
  obtain ⟨-, -, -, -, hpermits, -⟩ := within_limits smallHub _ accepted (by decide +kernel) exec_accepted
  exact ⟨exec_accepted, hone, hone ▸ hpermits 0⟩

end Hub

end Eggtunnel
