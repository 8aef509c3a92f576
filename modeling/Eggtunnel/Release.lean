/-
Eggtunnel/Release.lean

The server gives everything back.

Once nobody connects any more, no frame arrives and no external connection is
accepted, the tasks only work off what is there: control loops end, tasks leave
their loops, relays end, contexts are dropped.  Each such step makes the server
lighter (`Hub.weight`), so there are only so many of them, in whatever order
the scheduler takes them and with whatever aborts in between.

And they do not get stuck on each other: as long as something is left, some
task can go on by itself, without being aborted (`Hub.orderly`).  Where none
can, every table is empty and every gauge is back at zero.
-/
import Eggtunnel.ServerQueue
import Eggtunnel.Subside
import Eggtunnel.Workers

namespace Eggtunnel

/-! ### What is left to do -/

/-- The branches of a control loop that bring it nothing to do. -/
def ServerEvent.isEnding : ServerEvent → Bool
  | .readFailed _ | .cancelled | .idle | .outbound _ => true
  | _ => false

/-- The steps that a `run_service` task still takes, with what it hands on. -/
def TaskState.weight : TaskState → Nat
  | .leaving => 1
  | .accepting => 2
  | .rollingBack _ _ => 3
  | .advertising _ _ => 7
  | .admitted _ => 8

/-- The moves a relay has left at most. -/
def RelayState.weight : RelayState → Nat
  | .relaying _ => 1
  | .decided _ => 2
  | .waiting => 3

/-- Those of a control loop. -/
def ServerSession.weight (session : ServerSession) : Nat :=
  match session.server.phase with
  | .running => session.server.queue.length + if session.greeted then 2 else 3
  | .returned _ => 1

theorem ServerSession.weight_running {session : ServerSession}
    (hrun : session.server.phase = .running) :
    session.weight = session.server.queue.length + if session.greeted then 2 else 3 := by
  rw [weight, hrun]

theorem ServerSession.weight_ended {session : ServerSession}
    (hend : session.server.phase ≠ .running) : session.weight = 1 := by
  unfold weight
  split
  · rename_i hrun
    exact absurd hrun hend
  · rfl

theorem TaskState.weight_pos (state : TaskState) : 0 < state.weight := by
  cases state <;> exact Nat.succ_pos _

theorem RelayState.weight_pos (state : RelayState) : 0 < state.weight := by
  cases state <;> exact Nat.succ_pos _

/-- A control loop that is not given anything ends, or writes what is queued. -/
theorem Server.lighter_of_step {s t : Server} {e : ServerEvent} {writes : List Write}
    (he : e.isEnding = true) (h : s.step e = some (t, writes)) :
    t.phase ≠ .running ∨ t.queue.length < s.queue.length := by
  cases did_of_step h with
  | incoming | opened | drainQueued | childEnded | elsewhere => cases he
  | readFailed | cancelled | idle => exact .inl nofun
  | @outbound m rest o _ _ hrun hqueue heq =>
      have hrest := s.queue_onOutbound m rest o
      rw [heq] at hrest
      right
      rw [hrest, hqueue, List.length_cons]
      exact Nat.lt_succ_self _

namespace Hub

variable {s t : Hub} {e : HubEvent} {c : HubConfig}

/-- Those of the server. -/
def weight (s : Hub) : Nat :=
  s.sessions.total ServerSession.weight + s.tasks.total (·.state.weight) + s.relays.total (·.state.weight)
    + s.hellos.size

/-- The step works off what is there: nobody connects, no frame arrives, and no
connection is accepted. -/
def winding : HubEvent → Bool
  | .connect _ _ _ | .accept _ _ | .dataHello _ _ => false
  | .control _ e => e.isEnding
  | _ => true

/-- The same without aborts. -/
def orderly (s : Hub) : HubEvent → Bool
  | .taskDropped _ | .helloDropped _ => false
  | .relayDropped x => (s.relays.lookup x).any (·.state.weight = 1)
  | e => winding e

theorem winding_of_orderly (h : s.orderly e = true) : winding e = true := by
  cases e with
  | taskDropped | helloDropped => cases h
  | relayDropped => rfl
  | connect | greet | control | contextDropped | accept | insert | advertise | rollBack | leave
  | exit | received | gaveUp | release | dataHello | resolve => exact h

theorem fresh_of_winding (h : winding e = true) : s.fresh e = true := by
  cases e with
  | connect | accept => cases h
  | greet | control | contextDropped | insert | advertise | rollBack | leave | exit | taskDropped
  | received | gaveUp | release | relayDropped | dataHello | resolve | helloDropped => rfl

/-! ### Every step makes the server lighter -/

section

variable {u : Hub} {r : RegistrationId} {task : ServiceTask} {x : ExternalId} {relay : RelayTask}
  {k : ContextId} {session session' : ServerSession}

theorem weight_put (hk : s.sessions.lookup k = some session)
    (hsessions : t.sessions = s.sessions.insert k session') (htasks : t.tasks = s.tasks)
    (hrelays : t.relays = s.relays) (hhellos : t.hellos = s.hellos) :
    t.weight + session.weight = s.weight + session'.weight := by
  have htotal := Table.total_replace (f := ServerSession.weight) hk session'
  unfold weight
  rw [hsessions, htasks, hrelays, hhellos]
  omega

theorem lighter_put (hk : s.sessions.lookup k = some session)
    (hsessions : t.sessions = s.sessions.insert k session') (htasks : t.tasks = s.tasks)
    (hrelays : t.relays = s.relays) (hhellos : t.hellos = s.hellos)
    (hless : session'.weight < session.weight) : t.weight < s.weight := by
  have hput := weight_put hk hsessions htasks hrelays hhellos
  omega

theorem weight_setPending (hk : s.sessions.lookup k = some session) (p : PendingMap × Nat) :
    (s.setPending k session p).weight = s.weight := by
  have hput : (s.setPending k session p).weight + session.weight =
      s.weight + { session with pending := p.1 }.weight := weight_put hk rfl rfl rfl rfl
  exact Nat.add_right_cancel hput

theorem weight_setTask (hr : s.tasks.lookup r = some task) (state : TaskState) :
    (s.setTask r task state).weight + task.state.weight = s.weight + state.weight := by
  have htotal := Table.total_replace (f := (·.state.weight)) hr { task with state }
  unfold weight setTask
  dsimp only at htotal ⊢
  omega

theorem lighter_setTask {state : TaskState} (hr : u.tasks.lookup r = some task)
    (hu : u.weight = s.weight) (hless : state.weight < task.state.weight) :
    (u.setTask r task state).weight < s.weight := by
  have hset := weight_setTask hr state
  omega

theorem lighter_setRelay {state : RelayState} (hx : u.relays.lookup x = some relay)
    (hu : u.weight = s.weight) (hless : state.weight < relay.state.weight) :
    (u.setRelay x relay state).weight < s.weight := by
  have htotal := Table.total_replace (f := (·.state.weight)) hx { relay with state }
  rw [← hu]
  unfold weight setRelay
  dsimp only at htotal ⊢
  omega

theorem lighter_endRelay (hx : u.relays.lookup x = some relay) (hu : u.weight = s.weight) :
    (u.endRelay x).weight < s.weight := by
  have htotal := Table.total_erase (f := fun relay : RelayTask => relay.state.weight) hx
  have hpos := relay.state.weight_pos
  rw [← hu]
  unfold weight endRelay
  dsimp only at htotal ⊢
  omega

theorem lighter_reap (hr : u.tasks.lookup r = some task)
    (hk : u.sessions.lookup task.context = some session) (hu : u.weight = s.weight)
    (hsame : session'.weight = session.weight) : (u.reap r task session').weight < s.weight := by
  have htotal := Table.total_erase (f := fun task : ServiceTask => task.state.weight) hr
  have hpos := task.state.weight_pos
  have herase : ({ u with tasks := u.tasks.erase r } : Hub).weight < u.weight := by
    unfold weight
    dsimp only at htotal ⊢
    omega
  have hput := (weight_put (s := { u with tasks := u.tasks.erase r })
    (t := u.reap r task session') hk rfl rfl rfl rfl).trans (congrArg _ hsame)
  rw [Nat.add_right_cancel hput, ← hu]
  exact herase

theorem lighter_answerHello {d : StreamId} {hello : HelloTask}
    (result : Except TunnelError Unit) (hd : u.hellos.lookup d = some hello)
    (hu : u.weight = s.weight) : (u.answerHello d result).weight < s.weight := by
  have hsize := Table.size_erase hd
  rw [← hu]
  unfold weight answerHello
  dsimp only
  omega

theorem weight_trySend (session : ServerSession) (m : Message) :
    ({ session with server := session.server.trySend m } : ServerSession).weight
      ≤ session.weight + 1 := by
  have hphase : (session.server.trySend m).phase = session.server.phase := by
    unfold Server.trySend
    split_ifs <;> rfl
  have hlength : (session.server.trySend m).queue.length ≤ session.server.queue.length + 1 := by
    rw [Server.queue_trySend]
    split_ifs
    · rw [List.length_append, List.length_singleton]
    · exact Nat.le_succ _
  by_cases hrun : session.server.phase = .running
  · rw [ServerSession.weight_running hrun, ServerSession.weight_running (hphase.trans hrun)]
    dsimp only
    omega
  · rw [ServerSession.weight_ended hrun, ServerSession.weight_ended (hphase.trans_ne hrun)]
    exact Nat.le_succ 1

end

/-- **Every such step makes the server lighter.** -/
theorem lighter_of_step (he : winding e = true) (h : s.step e = some t) : t.weight < s.weight := by
  cases took_of_step h with
  | turnedAway | connected | saturated | admitted | unidentified | found | notFound => cases he
  | @greeted k o session hk hbefore hrun =>
      refine lighter_put hk rfl rfl rfl rfl ?_
      unfold ServerSession.weight
      dsimp only
      rw [hrun, hbefore]
      exact Nat.lt_succ_self _
  | @unreached k o session error hk hbefore hrun =>
      obtain ⟨_, _, heq⟩ := s.unreached_frame k session ((s.lent session).finish (.error error))
        (session.written ++ [(Message.authOk ⟨session.server.sessionId⟩, o)])
      rw [heq]
      refine lighter_put hk rfl rfl rfl rfl ?_
      have hphase : session.server.phase = .running := hrun
      rw [ServerSession.weight_running hphase, hbefore,
        ServerSession.weight_ended fun hrun' => by cases hrun']
      exact Nat.lt_of_lt_of_le (by decide) (Nat.le_add_left 3 _)
  | @controlled k e session server writes hk hgreeted hbranch hstep =>
      have hending : e.isEnding = true := he
      have hlent : (s.lent session).phase = .running := Server.running_of_branch hbranch hstep
      have hrun : session.server.phase = .running := hlent
      obtain ⟨_, _, _, _, _, _, heq⟩ :=
        s.controlled_frame k session e server writes (breaks e server)
      rw [heq]
      refine lighter_put hk rfl ?_ rfl rfl ?_
      · rcases s.branch_tasks k session e with ⟨htasks, -⟩ | ⟨register, os, o, rfl, -⟩
        · exact htasks
        · cases hending
      · rw [ServerSession.weight_running hrun, hgreeted, if_pos rfl]
        by_cases hrun' : server.phase = .running
        · have hshorter := (Server.lighter_of_step hending hstep).resolve_left (not_not.mpr hrun')
          rw [ServerSession.weight_running hrun']
          exact Nat.add_lt_add_right hshorter 2
        · rw [ServerSession.weight_ended hrun']
          exact Nat.lt_of_lt_of_le (by decide) (Nat.le_add_left 2 _)
  | @contextDropped k session hk hfree =>
      have htotal := Table.total_erase (f := ServerSession.weight) hk
      have hone := ServerSession.weight_ended ((held_eq_false hfree).1 session hk)
      unfold weight Hub.contextDropped
      dsimp only
      omega
  | full hat hstate =>
      refine lighter_setTask hat.1 rfl ?_
      rw [hstate]
      exact (by decide : 2 < 8)
  | inserted hat hstate =>
      refine lighter_setTask hat.1 (weight_setPending hat.2 _) ?_
      rw [hstate]
      exact (by decide : 7 < 8)
  | @advertised r task session id x hat hstate hrun hroom =>
      -- the queue and the relay take over what is left to do
      have hsend := weight_trySend session (.open ⟨task.serviceId, id⟩)
      have hput := weight_put (t := { s with
        sessions := s.sessions.insert task.context { session with
          server := session.server.trySend (.open ⟨task.serviceId, id⟩) } }) hat.2 rfl rfl rfl rfl
      have hrelay := Table.total_insert (fun relay : RelayTask => relay.state.weight) x
        ⟨task.context, r, id, .waiting⟩ s.relays
      have herase : Table.total (fun relay : RelayTask => relay.state.weight) (s.relays.erase x)
          ≤ s.relays.total fun relay => relay.state.weight := Table.total_erase_le s.relays x
      have hset := Table.total_replace (f := fun task : ServiceTask => task.state.weight) hat.1
        { task with state := .accepting }
      rw [hstate] at hset
      unfold weight setTask at *
      dsimp only [TaskState.weight, RelayState.weight] at *
      omega
  | unadvertised hat hstate =>
      refine lighter_setTask hat.1 rfl ?_
      rw [hstate]
      exact (by decide : 3 < 7)
  | rolledBack hat hstate =>
      refine lighter_setTask hat.1 (weight_setPending hat.2 _) ?_
      rw [hstate]
      exact (by decide : 2 < 3)
  | left hat hstate =>
      refine lighter_setTask hat.1 rfl ?_
      rw [hstate]
      exact (by decide : 1 < 2)
  | exited hat => exact lighter_reap hat.1 hat.2 rfl rfl
  | abortedRollingBack hat | aborted hat => exact lighter_reap hat.1 hat.2 rfl rfl
  | received hat hstate | gaveUp hat hstate =>
      refine lighter_setRelay hat.1 rfl ?_
      rw [hstate]
      exact (by decide : 2 < 3)
  | relaying hat hstate =>
      refine lighter_setRelay hat.1 (weight_setPending hat.2 _) ?_
      rw [hstate]
      exact (by decide : 1 < 2)
  | ended hat => exact lighter_endRelay hat.1 (weight_setPending hat.2 _)
  | relayDropped hat => exact lighter_endRelay hat.1 rfl
  | unknown hd hk | mismatched hd hk | delivered hd hk | late hd hk =>
      exact lighter_answerHello _ hd (weight_setPending hk _)
  | helloDropped hd => exact lighter_answerHello (.ok ()) hd rfl

/-! ### Something can always be done -/

/-- No context is left, and nobody who works on one. -/
structure Vacant (s : Hub) : Prop where
  sessions : s.sessions = ∅
  tasks : s.tasks = ∅
  relays : s.relays = ∅
  hellos : s.hellos = ∅

/-- A relay has a step of its own in every state. -/
theorem relay_moves {x : ExternalId} {relay : RelayTask} {session : ServerSession}
    (hat : s.RelayAt x relay session) : ∃ e, s.orderly e = true ∧ (s.step e).isSome = true := by
  cases hstate : relay.state with
  | waiting => exact ⟨.gaveUp x, rfl, by simp [Hub.step, onRelay, hat.1, hat.2, hstate]⟩
  | decided outcome =>
      exact ⟨.release x, rfl, by simp [Hub.step, onRelay, hat.1, hat.2, hstate]⟩
  | relaying data =>
      refine ⟨.relayDropped x, ?_, by simp [Hub.step, onRelay, hat.1, hat.2]⟩
      simp [orderly, hat.1, hstate, RelayState.weight]

/-- So has a task whose Session is over and whose relays are gone. -/
theorem Staffed.task_moves (hs : Staffed c s) {r : RegistrationId} {task : ServiceTask}
    {session : ServerSession} (hat : s.TaskAt r task session) (hover : ¬ s.Runs task.context)
    (hrelays : s.relays = ∅) (hword : s.pendingTotal + 1 < usizeValues) :
    ∃ e, s.orderly e = true ∧ (s.step e).isSome = true := by
  cases hstate : task.state with
  | accepting =>
      have hcancelled := (hs.told r task hat.1).resolve_right hover
      exact ⟨.leave r, rfl, by simp [Hub.step, onTask, hat.1, hat.2, hstate, hcancelled]⟩
  | leaving =>
      refine ⟨.exit r, rfl, by
        simp [Hub.step, onTask, hat.1, hat.2, hstate, hrelays, Table.values]⟩
  | advertising id x => exact ⟨.advertise r, rfl, by simp [Hub.step, onTask, hat.1, hat.2, hstate]⟩
  | rollingBack id x => exact ⟨.rollBack r, rfl, by simp [Hub.step, onTask, hat.1, hat.2, hstate]⟩
  | admitted id =>
      by_cases hfull : s.policy.limits.pendingPerSession ≤ session.pending.size
      · exact ⟨.insert r 0, rfl, by
          simp [Hub.step, onTask, hat.1, hat.2, hstate, Hub.insert, hfull]⟩
      · exact ⟨.insert r 0, rfl, by
          simp [Hub.step, onTask, hat.1, hat.2, hstate, Hub.insert, hfull, hword]⟩

/-- Any task can be aborted, or is between two awaits. -/
theorem task_aborts {r : RegistrationId} {task : ServiceTask} {session : ServerSession}
    (hat : s.TaskAt r task session) : ∃ e, winding e = true ∧ (s.step e).isSome = true := by
  cases hstate : task.state with
  | advertising id x => exact ⟨.advertise r, rfl, by simp [Hub.step, onTask, hat.1, hat.2, hstate]⟩
  | accepting | leaving | rollingBack | admitted =>
      exact ⟨.taskDropped r, rfl, by simp [Hub.step, onTask, hat.1, hat.2, hstate]⟩

theorem held_eq_false_of_idle {k : ContextId} (hover : ¬ s.Runs k) (htasks : s.tasks = ∅)
    (hrelays : s.relays = ∅) (hhellos : s.hellos = ∅) : s.held k = false := by
  have hsession : (s.sessions.lookup k).any (·.server.phase = .running) = false := by
    cases hk : s.sessions.lookup k with
    | none => rfl
    | some session => exact decide_eq_false fun hrun => hover ⟨session, hk, hrun⟩
  simp [held, hsession, htasks, hrelays, hhellos, Table.values]

/-- **As long as something is left, somebody can go on**, if the tasks can. -/
theorem Staffed.moves (hs : Staffed c s) {D : HubEvent → Prop}
    (horderly : ∀ e, s.orderly e = true → D e)
    (htask : ∀ r task session, s.TaskAt r task session → ¬ s.Runs task.context → s.relays = ∅ →
      ∃ e, D e ∧ (s.step e).isSome = true)
    (hbusy : ¬ Vacant s) : ∃ e, D e ∧ (s.step e).isSome = true := by
  by_cases hruns : ∃ k, s.Runs k
  · -- a control loop is told to end, once `AuthOk` is written
    obtain ⟨k, session, hk, hrun⟩ := hruns
    cases hgreeted : session.greeted with
    | false => exact ⟨.greet k .done, horderly _ rfl, by simp [Hub.step, hk, hgreeted, hrun]⟩
    | true =>
        refine ⟨.control k .cancelled, horderly _ rfl, ?_⟩
        simp [Hub.step, hk, hgreeted, ServerEvent.isBranch, Hub.control, Server.step, lent, hrun]
  have hover (k : ContextId) : ¬ s.Runs k := fun hk => hruns ⟨k, hk⟩
  by_cases hrelays : s.relays = ∅
  · by_cases htasks : s.tasks = ∅
    · by_cases hhellos : s.hellos = ∅
      · have hsessions : s.sessions ≠ ∅ := fun hsessions =>
          hbusy ⟨hsessions, htasks, hrelays, hhellos⟩
        obtain ⟨k, session, hk⟩ := Table.exists_lookup hsessions
        have hfree := held_eq_false_of_idle (hover k) htasks hrelays hhellos
        exact ⟨.contextDropped k, horderly _ rfl, by simp [Hub.step, hk, hfree]⟩
      · obtain ⟨d, task, hd⟩ := Table.exists_lookup hhellos
        obtain ⟨session, hk⟩ := hs.anchored.hellos d task hd
        exact ⟨.resolve d 0, horderly _ rfl, by simp [Hub.step, hd, hk]⟩
    · obtain ⟨r, task, hr⟩ := Table.exists_lookup htasks
      obtain ⟨session, hk⟩ := hs.anchored.tasks r task hr
      exact htask r task session ⟨hr, hk⟩ (hover _) hrelays
  · obtain ⟨x, relay, hx⟩ := Table.exists_lookup hrelays
    obtain ⟨session, hk⟩ := hs.anchored.relays x relay hx
    obtain ⟨e, he, hmoves⟩ := relay_moves (⟨hx, hk⟩ : s.RelayAt x relay session)
    exact ⟨e, horderly e he, hmoves⟩

/-! ### The server at rest -/

/-- Every table of the server is empty and every gauge is zero. -/
structure Released (s : Hub) : Prop extends Vacant s where
  registry : s.registry = ∅
  inbox : s.inbox = ∅
  binds : s.counters.binds = []
  services : s.counters.services = 0
  sessionGauge : s.counters.sessions = 0
  pending : s.gauges.pending = 0
  active : s.gauges.activeConnections = 0

theorem Staffed.released (hs : Staffed c s) (hvacant : Vacant s) : Released s := by
  have hregistry : s.registry = ∅ := by
    refine Table.eq_empty_iff.mpr fun id => Option.eq_none_iff_forall_ne_some.mpr fun k hid => ?_
    obtain ⟨session, hk, -⟩ := hs.use.registered.running id k hid
    rw [hvacant.sessions] at hk
    cases hk
  have hinbox : s.inbox = ∅ := by
    refine Table.eq_empty_iff.mpr fun x => Option.eq_none_iff_forall_ne_some.mpr fun d hd => ?_
    rcases hs.awaited x d hd with ⟨relay, hx, -⟩ | ⟨r, task, id, hr, -⟩
    · rw [hvacant.relays] at hx
      cases hx
    · rw [hvacant.tasks] at hr
      cases hr
  have hbinds : s.counters.binds = [] := by
    refine List.eq_nil_iff_forall_not_mem.mpr fun b hb => ?_
    have hkey := hs.tabled.shared.filed.indexed.mem.mp (List.mem_map_of_mem hb)
    rw [serviceKeys, hregistry] at hkey
    cases hkey
  have hpending := hs.use.reconciled.balanced.gauge.trans s.ledger_total
  rw [pendingTotal, hvacant.sessions] at hpending
  have hactive := hs.gauged
  rw [Gauged, hvacant.relays] at hactive
  have hsessions := hs.tabled.shared.guards
  rw [hregistry] at hsessions
  have hservices := hs.tabled.shared.filed.gauge
  rw [hbinds] at hservices
  exact ⟨hvacant, hregistry, hinbox, hbinds, hservices, hsessions, hpending, hactive⟩

/-- The server comes to rest. -/
theorem subsides (c : HubConfig) :
    Subsides Hub.step (fun _ e => winding e = true) (Staffed c) Vacant weight where
  keeps _ _ _ hs he h := hs.step (fresh_of_winding he) h
  lowers _ _ _ _ he h := lighter_of_step he h
  moves _ hs hbusy := hs.moves (fun _ => winding_of_orderly) (fun _ _ _ hat _ _ => task_aborts hat) hbusy

/-- The same without aborts; all entries fit into one address space. -/
theorem subsides_orderly (c : HubConfig) :
    Subsides Hub.step (fun s e => s.orderly e = true) (Staffed c)
      (fun s => Vacant s ∨ usizeValues ≤ s.pendingTotal + 1) weight := by
  refine (subsides c).restrict (fun _ _ => winding_of_orderly) fun s hs hbusy => ?_
  obtain ⟨hvacant, hword⟩ := not_or.mp hbusy
  exact hs.moves (fun _ he => he)
    (fun _ _ _ hat hover hrelays => hs.task_moves hat hover hrelays (Nat.not_le.mp hword)) hvacant

/-- **The server gives everything back.**  From every state it can get into,
once nothing new arrives,

* it takes no more steps than its weight, in whatever order, aborts included;
* as long as not all is given back, some task can go on without being aborted;
* and there is an order in which all is given back: no Session, task, relay,
  stream, data connection, registry entry or bind entry is left, and the gauges
  of Sessions, Services, pending and active connections are zero. -/
theorem gives_everything_back (c : HubConfig) (es : List HubEvent) (s : Hub)
    (hfresh : AllSteps step (fun s e => s.fresh e = true) (init c) es)
    (hrun : exec step (init c) es = some s) :
    (∀ fs t, AllSteps step (fun _ e => winding e = true) s fs → exec step s fs = some t →
      fs.length ≤ s.weight ∧
      ((∀ e, t.orderly e = true → t.step e = none) → t.pendingTotal + 1 < usizeValues →
        Released t)) ∧
    ∃ fs t, AllSteps step (fun _ e => winding e = true) s fs ∧ exec step s fs = some t ∧
      Released t := by
  have hs : Staffed c s := staffed_exec hfresh hrun
  refine ⟨fun fs t hwinding hrest => ⟨?_, fun hstuck hword => ?_⟩, ?_⟩
  · exact (Nat.le_add_right _ _).trans ((subsides c).length_le hs hwinding hrest)
  · have ht : Staffed c t := exec_inv (subsides c).keeps hs hwinding hrest
    have hnone : AllSteps step (fun s e => s.orderly e = true) t [] := trivial
    have hrested := (subsides_orderly c).rest_of_stuck ht hnone rfl hstuck
    exact ht.released (hrested.resolve_right (Nat.not_le.mpr hword))
  · obtain ⟨fs, t, hwinding, hrest, hvacant⟩ := (subsides c).reaches_rest hs
    exact ⟨fs, t, hwinding, hrest, (exec_inv (subsides c).keeps hs hwinding hrest).released hvacant⟩

theorem gives_everything_back_accepted :
    exec step (init smallHub) (acceptOne sampleId sampleConnection) = some accepted ∧
    accepted.gauges.pending = 1 ∧ accepted.weight = 9 ∧
    (∀ fs t, AllSteps step (fun _ e => winding e = true) accepted fs →
      exec step accepted fs = some t → fs.length ≤ 9) ∧
    ∃ fs t, exec step accepted fs = some t ∧ Released t := by
  have hweight : accepted.weight = 9 := by decide +kernel
  obtain ⟨hbound, fs, t, -, hfs, ht⟩ :=
    gives_everything_back smallHub _ accepted (by decide +kernel) exec_accepted
  exact ⟨exec_accepted, by decide +kernel, hweight,
    fun fs t hwinding hfs => hweight ▸ (hbound fs t hwinding hfs).1, fs, t, hfs, ht⟩

end Hub

end Eggtunnel
