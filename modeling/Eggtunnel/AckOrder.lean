/-
Eggtunnel/AckOrder.lean

The order of the frames on a control stream.

A listener is live before its registration is acknowledged: `register_service`
spawns the `run_service` task and then awaits the write of the `RegisterAck`,
and meanwhile other tasks run, the new one among them.  Here the two halves are
steps of their own (`install`, `acknowledge`); a control loop that awaits its
write takes no other branch.

A frame also carries what no reader sees (`source`): the registration whose
task has queued it, or which it acknowledges.
-/
import Eggtunnel.Teardown
import Eggtunnel.ServerQueue

namespace Eggtunnel

/-! ### Frames and their sources -/

/-- A frame in the control queue, and the registration whose task put it there. -/
structure Queued where
  source : Option RegistrationId
  message : Message
  deriving DecidableEq

/-- A frame that was written. -/
structure Sent where
  source : Option RegistrationId
  message : Message
  outcome : WriteOutcome
  deriving DecidableEq

/-- The writing side of a control loop.  `acking` is the `RegisterAck` whose
write it awaits. -/
structure Channel where
  acking : Option (RegistrationId × RegisterAck)
  queued : List Queued
  sent : List Sent

namespace Channel

/-- Nothing queued and nothing written. -/
def empty : Channel := ⟨none, [], []⟩

/-- A frame leaves the queue, another joins it, and some are written. -/
def after (c : Channel) (takes : Bool) (arrival : Option Queued) (writes : List Write) : Channel :=
  { c with
    queued := (if takes then c.queued.tail else c.queued) ++ arrival.toList
    sent := c.sent ++ writes.map fun w =>
      ⟨if takes then c.queued.head?.bind (·.source) else none, w.1, w.2⟩ }

/-- The channel shows the queue and the stream of the Session. -/
structure Mirrors (c : Channel) (session : ServerSession) : Prop where
  queued : c.queued.map (·.message) = session.server.queue
  sent : c.sent.map (fun f => (f.message, f.outcome)) = session.written

end Channel

namespace Hub

/-- The Session whose queue or stream the step is about. -/
def speaker (s : Hub) : HubEvent → Option ContextId
  | .greet k _ | .control k _ => some k
  | .advertise r => (s.tasks.lookup r).map (·.context)
  | _ => none

/-- The step takes the head of a queue. -/
def takes : HubEvent → Bool
  | .control _ e => e.takes
  | _ => false

/-- The frame that joins the queue, from the task that sends it. -/
def arrival (s : Hub) : HubEvent → Option Queued
  | .control k e => (s.sessions.lookup k).bind fun session =>
      ((s.lent session).arriving e).map (Queued.mk none)
  | .advertise r => (s.tasks.lookup r).bind fun task =>
      (s.sessions.lookup task.context).bind fun session =>
        match task.state with
        | .advertising c _ =>
            if session.server.phase = .running ∧
                session.server.queue.length < s.policy.limits.controlQueue then
              some ⟨some r, .open ⟨task.serviceId, c⟩⟩
            else none
        | _ => none
  | _ => none

/-- The frames the step writes. -/
def writes (s : Hub) : HubEvent → List Write
  | .greet k o => (s.sessions.lookup k).elim [] fun session =>
      [(.authOk ⟨session.server.sessionId⟩, o)]
  | .control k e =>
      ((s.sessions.lookup k).bind fun session => (s.lent session).step e).elim [] (·.2)
  | _ => []

variable {s t : Hub} {e : HubEvent} {k : ContextId} {session session' : ServerSession}

/-- The other tasks leave the queues alone. -/
theorem queue_of_aside (he : e.isSessions = false) (hspeaker : s.speaker e = none)
    (h : s.step e = some t) (hk : t.sessions.lookup k = some session') :
    ∃ session, s.sessions.lookup k = some session ∧ session'.server.queue = session.server.queue := by
  have hput {a : ContextId} {old new : ServerSession} (heq : t.sessions = s.sessions.insert a new)
      (ha : s.sessions.lookup a = some old) (hqueue : new.server.queue = old.server.queue) :
      ∃ session, s.sessions.lookup k = some session ∧
        session'.server.queue = session.server.queue := by
    rw [heq, Table.lookup_insert_eq] at hk
    split_ifs at hk with hka
    · obtain rfl := Option.some.inj hk
      exact ⟨old, hka ▸ ha, hqueue⟩
    · exact ⟨session', hk, rfl⟩
  have hstill (heq : t.sessions = s.sessions) : ∃ session, s.sessions.lookup k = some session ∧
      session'.server.queue = session.server.queue := ⟨session', heq ▸ hk, rfl⟩
  cases took_of_step h with
  | turnedAway | connected | greeted | unreached | controlled | contextDropped => cases he
  | advertised hat | unadvertised hat =>
      rw [speaker, hat.1] at hspeaker
      cases hspeaker
  | inserted hat | rolledBack hat | exited hat | abortedRollingBack hat | aborted hat | relaying hat
  | ended hat => exact hput rfl hat.2 rfl
  | unknown _ ha | mismatched _ ha | delivered _ ha | late _ ha => exact hput rfl ha rfl
  | saturated | admitted | unidentified | full | left | received | gaveUp | relayDropped | found
  | notFound | helloDropped => exact hstill rfl

/-- The Session whose queue or stream moves is there. -/
theorem speaker_lookup (h : s.step e = some t) (hk : s.speaker e = some k) :
    ∃ session, s.sessions.lookup k = some session := by
  have hdid := did_of_step h
  cases e with
  | greet a o =>
      obtain ⟨session, ha, -⟩ := hdid
      exact ⟨session, Option.some.inj hk ▸ ha⟩
  | control a e =>
      obtain ⟨session, -, -, ha, -⟩ := hdid
      exact ⟨session, Option.some.inj hk ▸ ha⟩
  | advertise r =>
      obtain ⟨task, session, -, -, hat, -⟩ := hdid
      rw [speaker, hat.1] at hk
      exact ⟨session, Option.some.inj hk ▸ hat.2⟩
  | _ => cases hk

/-- What becomes of the queue and the stream of the Session `k`. -/
def Traffic (s : Hub) (e : HubEvent) (k : ContextId) (session session' : ServerSession) : Prop :=
  if s.speaker e = some k then
    session'.server.queue = (if takes e then session.server.queue.tail else session.server.queue)
      ++ (s.arrival e).toList.map (·.message) ∧
    session'.written = session.written ++ s.writes e
  else session'.server.queue = session.server.queue ∧ session'.written = session.written

theorem Traffic.still (hspeaker : s.speaker e ≠ some k) (session : ServerSession) :
    Traffic s e k session session := by
  rw [Traffic, if_neg hspeaker]
  exact ⟨rfl, rfl⟩

/-- One Session is put back, and its queue and stream have moved. -/
theorem Traffic.put {a : ContextId} {old new : ServerSession}
    (hk : t.sessions.lookup k = some session') (heq : t.sessions = s.sessions.insert a new)
    (ha : s.sessions.lookup a = some old) (hspeaker : s.speaker e = some a)
    (hqueue : new.server.queue = (if takes e then old.server.queue.tail else old.server.queue)
      ++ (s.arrival e).toList.map (·.message))
    (hwritten : new.written = old.written ++ s.writes e) :
    ∃ session, s.sessions.lookup k = some session ∧ Traffic s e k session session' := by
  rw [heq, Table.lookup_insert_eq] at hk
  split_ifs at hk with hka
  · obtain rfl := Option.some.inj hk
    subst hka
    refine ⟨old, ha, ?_⟩
    rw [Traffic, if_pos hspeaker]
    exact ⟨hqueue, hwritten⟩
  · refine ⟨session', hk, .still (fun hthis => hka ?_) session'⟩
    exact Option.some.inj (hthis.symm.trans hspeaker)

/-- `try_send` of an `Open`: it joins the queue if there is room. -/
theorem traffic_advertise {r : RegistrationId} {task : ServiceTask} {old : ServerSession}
    {c : ConnectionId} {x : ExternalId} (hpolicy : old.server.policy = s.policy)
    (hat : s.TaskAt r task old) (hstate : task.state = .advertising c x)
    (hk : (s.advertise r task c x old).sessions.lookup k = some session') :
    ∃ session, s.sessions.lookup k = some session ∧
      Traffic s (.advertise r) k session session' := by
  have harrival : s.arrival (.advertise r)
      = if old.server.phase = .running ∧
          old.server.queue.length < s.policy.limits.controlQueue then
        some ⟨some r, .open ⟨task.serviceId, c⟩⟩ else none := by
    simp only [arrival, hat.1, hat.2, Option.bind_some, hstate]
  have hspeaker : s.speaker (.advertise r) = some task.context := by
    rw [speaker, hat.1]
    rfl
  unfold Hub.advertise at hk
  split_ifs at hk with hroom
  · rw [if_pos hroom] at harrival
    refine Traffic.put hk rfl hat.2 hspeaker ?_ (List.append_nil _).symm
    rw [harrival, Server.queue_trySend, hpolicy, if_pos hroom.2]
    rfl
  · rw [if_neg hroom] at harrival
    refine ⟨session', hk, ?_⟩
    unfold Traffic
    rw [harrival]
    by_cases hthis : s.speaker (.advertise r) = some k
    · rw [if_pos hthis]
      exact ⟨(List.append_nil _).symm, (List.append_nil _).symm⟩
    · rw [if_neg hthis]
      exact ⟨rfl, rfl⟩

/-- A branch of the control loop. -/
theorem traffic_control {a : ContextId} {e : ServerEvent} (h : s.step (.control a e) = some t)
    (hk : t.sessions.lookup k = some session') :
    ∃ session, s.sessions.lookup k = some session ∧
      Traffic s (.control a e) k session session' := by
  obtain ⟨old, server, writes, ha, -, hbranch, hstep, rfl⟩ := did_of_step h
  obtain ⟨p, -, heq⟩ := Hub.conclude_frame
    { (s.branch a old e).1 with counters := server.counters } a
    { (s.branch a old e).2 with
      server, written := (s.branch a old e).2.written ++ writes } (breaks e server)
  have hsessions : (s.branch a old e).1.sessions = s.sessions := by rw [(s.branch_frame a old e).1]
  have hwritten : (s.branch a old e).2.written = old.written := by rw [(s.branch_frame a old e).2]
  refine Traffic.put hk ((congrArg Hub.sessions heq).trans (congrArg (AList.insert a _) hsessions)) ha rfl
    ?_ ?_
  · obtain ⟨hqueue, -⟩ := Server.traffic_of_step hbranch hstep
    rw [arrival, ha, Option.bind_some]
    dsimp only [takes]
    rw [hqueue]
    congr 1
    rcases (s.lent old).arriving e with - | m <;> rfl
  · rw [Hub.writes, ha, Option.bind_some, hstep, hwritten]
    rfl

/-- **What a step does to the queue and the stream of a Session.** -/
theorem traffic_of_step (hpolicy : ∀ a old, s.sessions.lookup a = some old →
      old.server.policy = s.policy) (h : s.step e = some t)
    (hk : t.sessions.lookup k = some session') :
    (k = s.next ∧ s.speaker e = none ∧ session'.server.queue = [] ∧ session'.written = []) ∨
    ∃ session, s.sessions.lookup k = some session ∧ Traffic s e k session session' := by
  cases e with
  | connect id principal negotiated =>
      obtain rfl := did_of_step h
      unfold Hub.connect at hk
      dsimp only at hk
      split_ifs at hk
      · exact .inr ⟨session', hk, .still (by simp [speaker]) session'⟩
      · dsimp only at hk
        rw [Table.lookup_insert_eq] at hk
        split_ifs at hk with hka
        · obtain rfl := Option.some.inj hk
          exact .inl ⟨hka, rfl, rfl, rfl⟩
        · exact .inr ⟨session', hk, .still (by simp [speaker]) session'⟩
  | greet a o =>
      obtain ⟨old, ha, -, -, rfl⟩ := did_of_step h
      have hwrites : s.writes (.greet a o) = [(.authOk ⟨old.server.sessionId⟩, o)] := by
        rw [writes, ha]
        rfl
      unfold Hub.greet at hk
      dsimp only at hk
      split at hk
      · refine .inr (Traffic.put hk rfl ha rfl (List.append_nil _).symm ?_)
        rw [hwrites]
      · obtain ⟨p, -, heq⟩ := Hub.conclude_frame _ a _ false
        refine .inr (Traffic.put hk (congrArg Hub.sessions heq) ha rfl (List.append_nil _).symm ?_)
        rw [hwrites]
  | control a e => exact .inr (traffic_control h hk)
  | contextDropped a =>
      obtain ⟨old, -, -, rfl⟩ := did_of_step h
      dsimp only [Hub.contextDropped] at hk
      rw [Table.lookup_erase_eq] at hk
      split_ifs at hk
      exact .inr ⟨session', hk, .still (by simp [speaker]) session'⟩
  | advertise r =>
      obtain ⟨task, old, c, x, hat, hstate, rfl⟩ := did_of_step h
      exact .inr (traffic_advertise (hpolicy _ old hat.2) hat hstate hk)
  | _ =>
      obtain ⟨session, hold, hqueue⟩ := queue_of_aside rfl rfl h hk
      obtain ⟨session₁, hold₁, hsame⟩ := (aside_step rfl h).backward hk
      obtain rfl := Option.some.inj (hold.symm.trans hold₁)
      refine .inr ⟨session, hold, ?_⟩
      rw [Traffic, if_neg nofun]
      exact ⟨hqueue, hsame.written⟩

/-- The end of a branch puts the Session back and leaves the tasks alone. -/
theorem conclude_put (s : Hub) (k : ContextId) (session : ServerSession) (b : Bool) :
    (∃ pending, (s.conclude k session b).sessions
      = s.sessions.insert k { session with pending := pending }) ∧
    (s.conclude k session b).policy = s.policy ∧ (s.conclude k session b).next = s.next ∧
    (s.conclude k session b).tasks = s.tasks := by
  obtain ⟨p, -, heq⟩ := s.conclude_frame k session b
  rw [heq]
  exact ⟨⟨p.1, rfl⟩, rfl, rfl, rfl⟩

/-- An `Open` joins a queue when its task sends it. -/
theorem arrival_open {f : Queued} {v : Open} (h : s.arrival e = some f) (hv : f.message = .open v) :
    ∃ r task x, e = .advertise r ∧ s.tasks.lookup r = some task ∧ f.source = some r ∧
      task.serviceId = v.serviceId ∧ task.state = .advertising v.connectionId x := by
  cases e with
  | control a e =>
      obtain ⟨session, -, hmap⟩ := Option.bind_eq_some_iff.mp h
      obtain ⟨m, hm, rfl⟩ := Option.map_eq_some_iff.mp hmap
      subst hv
      cases e with
      | drainQueued deadlineMs =>
          dsimp only [Server.arriving] at hm
          split_ifs at hm
          cases hm
      | _ => cases hm
  | advertise r =>
      obtain ⟨task, htask, hbind⟩ := Option.bind_eq_some_iff.mp h
      obtain ⟨session, -, hsome⟩ := Option.bind_eq_some_iff.mp hbind
      split at hsome
      · rename_i c x hstate
        split_ifs at hsome
        obtain rfl := Option.some.inj hsome
        cases hv
        exact ⟨r, task, x, rfl, htask, rfl, rfl, hstate⟩
      · cases hsome
  | _ => cases h

/-- What is written comes from the head of the queue, or is no frame of the
queue. -/
theorem writes_of_step (h : s.step e = some t) (hspeaker : s.speaker e = some k) :
    (∃ o o' session m, e = .control k (.outbound o) ∧ s.sessions.lookup k = some session ∧
      session.server.phase = .running ∧ session.server.queue.head? = some m ∧
      s.writes e = [(m, o')]) ∨
    (takes e = false ∧ ∀ w ∈ s.writes e, w.1.isQueued = false) := by
  cases e with
  | greet a o =>
      obtain ⟨session, ha, -⟩ := did_of_step h
      refine .inr ⟨rfl, fun w hw => ?_⟩
      rw [writes, ha] at hw
      rw [List.mem_singleton.mp hw]
      rfl
  | control a e =>
      obtain ⟨session, server, frames, ha, -, hbranch, hstep, -⟩ := did_of_step h
      obtain rfl := Option.some.inj hspeaker
      have hwrites : s.writes (.control a e) = frames := by
        rw [writes, ha, Option.bind_some, hstep]
        rfl
      obtain ⟨-, htraffic⟩ := Server.traffic_of_step hbranch hstep
      rw [hwrites]
      split_ifs at htraffic with htakes
      · obtain ⟨m, o', hhead, rfl⟩ := htraffic
        have hrun : (s.lent session).phase = .running := Server.running_of_branch hbranch hstep
        cases e with
        | outbound o => exact .inl ⟨o, o', session, m, rfl, ha, hrun, hhead, rfl⟩
        | _ => cases htakes
      · exact .inr ⟨Bool.eq_false_iff.mpr htakes, htraffic⟩
  | advertise r => exact .inr ⟨rfl, nofun⟩
  | _ => cases hspeaker

/-- An `Open` is written by the branch of the queue, from its head. -/
theorem writes_open {w : Write} {v : Open} (h : s.step e = some t) (hspeaker : s.speaker e = some k)
    (hw : w ∈ s.writes e) (hv : w.1 = .open v) :
    ∃ o session, e = .control k (.outbound o) ∧ s.sessions.lookup k = some session ∧
      session.server.phase = .running ∧ session.server.queue.head? = some (.open v) := by
  rcases writes_of_step h hspeaker with ⟨o, o', session, m, he, hk, hrun, hhead, hwrites⟩ | ⟨-, hnot⟩
  · rw [hwrites] at hw
    obtain rfl := List.mem_singleton.mp hw
    exact ⟨o, session, he, hk, hrun, hhead.trans (congrArg some hv)⟩
  · have hqueued := hnot w hw
    rw [hv] at hqueued
    cases hqueued

/-- Every Session has the policy of the server. -/
theorem policy_step (hs : ∀ a old, s.sessions.lookup a = some old → old.server.policy = s.policy)
    (h : s.step e = some t) (a : ContextId) (new : ServerSession)
    (ha : t.sessions.lookup a = some new) : new.server.policy = t.policy := by
  rw [(steady_step h).policy]
  cases sessionMove_of_step h ha with
  | still old hold hsame => exact hsame.server.policy.trans (hs a old hold)
  | begun id principal negotiated hnext hnew =>
      rw [hnew]
      rfl
  | greeted o old hold hbefore hrun hdone hafter =>
      rw [hafter]
      exact hs a old hold
  | unreached o old error hold hbefore hrun hafter =>
      rw [hafter]
      exact hs a old hold
  | moved e old server frames pending hold hgreeted hbranch hstep hafter =>
      rw [hafter]
      exact (Server.fixed_step hstep).policy.trans (hs a old hold)

end Hub

/-- The server, and the writing side of every control loop. -/
structure Writers where
  hub : Hub
  channels : ContextId → Channel

/-- What can happen, with `register_service` in two parts. -/
inductive WriterEvent
  /-- `register_service` up to its write: the listener is bound, its task runs -/
  | install (k : ContextId) (register : RegisterService) (os : BindOutcome)
  /-- the write of the `RegisterAck` ends -/
  | acknowledge (k : ContextId) (o : WriteOutcome)
  /-- any other event of the server -/
  | other (e : HubEvent)

namespace Writers

/-- The server as it is bound. -/
def init (c : HubConfig) : Writers := ⟨Hub.init c, fun _ => .empty⟩

/-- The control loop is at its `select!`.  A registration that is accepted goes
by `install`; the `Drain` of the shutdown is queued by another task. -/
def free (s : Writers) : HubEvent → Bool
  | .control _ (.drainQueued _) => true
  | .control k (.incoming (.registerService register) os _) =>
      (s.channels k).acking.isNone && (s.hub.sessions.lookup k).all fun session =>
        match ((s.hub.lent session).registerService register os).2 with
        | .accepted _ => false
        | .refused _ => true
  | .control k _ => (s.channels k).acking.isNone
  | _ => true

/-- The first part: the tables and the listener's task, unless the answer is a refusal. -/
def install (s : Writers) (k : ContextId) (session : ServerSession) (register : RegisterService)
    (os : BindOutcome) : Option Writers :=
  match (s.hub.lent session).registerService register os with
  | (server, .accepted bind) =>
      let (hub, session) := s.hub.branch k session (.incoming (.registerService register) os .done)
      some {
        hub := { hub with
          counters := server.counters
          sessions := hub.sessions.insert k { session with server } }
        channels := Function.update s.channels k
          { s.channels k with acking := some (s.hub.next, ⟨register.serviceId, bind⟩) } }
  | (_, .refused _) => none

/-- The second part: the write of the `RegisterAck` and the end of the branch. -/
def acknowledge (s : Writers) (k : ContextId) (session : ServerSession) (r : RegistrationId)
    (ack : RegisterAck) (o : WriteOutcome) : Writers :=
  let (server, writes) := (s.hub.lent session).writing (.registerAck ack) o
  { hub := { s.hub with counters := server.counters }.conclude k
      { session with server, written := session.written ++ writes } false
    channels := Function.update s.channels k { s.channels k with
      acking := none
      sent := (s.channels k).sent ++ [⟨some r, .registerAck ack, o⟩] } }

/-- What a step does to the channels. -/
def advance (s : Writers) (e : HubEvent) : ContextId → Channel :=
  match s.hub.speaker e with
  | some k => Function.update s.channels k
      ((s.channels k).after (Hub.takes e) (s.hub.arrival e) (s.hub.writes e))
  | none => s.channels

/-- A control loop that waits for its write does nothing else. -/
def step (s : Writers) : WriterEvent → Option Writers
  | .install k register os => (s.hub.sessions.lookup k).bind fun session =>
      if session.greeted = true ∧ session.server.phase = .running ∧
          (s.channels k).acking = none then
        s.install k session register os
      else none
  | .acknowledge k o => (s.hub.sessions.lookup k).bind fun session =>
      (s.channels k).acking.map fun (r, ack) => s.acknowledge k session r ack o
  | .other e =>
      if s.free e then (s.hub.step e).map fun hub => ⟨hub, s.advance e⟩ else none

/-- The steps of the server and its control loops. -/
inductive Moves (s : Writers) : WriterEvent → Writers → Prop
  | installed {k register os session server bind} (hk : s.hub.sessions.lookup k = some session)
      (hgreeted : session.greeted = true) (hrun : session.server.phase = .running)
      (hfree : (s.channels k).acking = none)
      (haccepted : (s.hub.lent session).registerService register os = (server, .accepted bind)) :
      Moves s (.install k register os) {
        hub := { s.hub with
          tasks := s.hub.tasks.insert s.hub.next ⟨k, register.serviceId, .accepting⟩
          next := s.hub.next + 1
          counters := server.counters
          sessions := s.hub.sessions.insert k { session with
            tokens := session.tokens.insert register.serviceId s.hub.next
            served := session.served ++ [(register, .accepted bind)]
            server } }
        channels := Function.update s.channels k
          { s.channels k with acking := some (s.hub.next, ⟨register.serviceId, bind⟩) } }
  | acknowledged {k o session r ack} (hk : s.hub.sessions.lookup k = some session)
      (hacking : (s.channels k).acking = some (r, ack)) :
      Moves s (.acknowledge k o) (s.acknowledge k session r ack o)
  | went {e hub} (hfree : s.free e = true) (hstep : s.hub.step e = some hub) :
      Moves s (.other e) ⟨hub, s.advance e⟩

/-! ### The two halves of a registration -/

variable {s t : Writers} {k : ContextId} {session : ServerSession}

/-- What the first half does. -/
theorem install_eq_some {register : RegisterService} {os : BindOutcome}
    (h : s.install k session register os = some t) :
    ∃ server bind, (s.hub.lent session).registerService register os = (server, .accepted bind) ∧
      t = {
        hub := { s.hub with
          tasks := s.hub.tasks.insert s.hub.next ⟨k, register.serviceId, .accepting⟩
          next := s.hub.next + 1
          counters := server.counters
          sessions := s.hub.sessions.insert k { session with
            tokens := session.tokens.insert register.serviceId s.hub.next
            served := session.served ++ [(register, .accepted bind)]
            server } }
        channels := Function.update s.channels k
          { s.channels k with acking := some (s.hub.next, ⟨register.serviceId, bind⟩) } } := by
  unfold install at h
  rcases hregister : (s.hub.lent session).registerService register os with ⟨server, bind | code⟩
  · rw [hregister] at h
    simp only [Hub.branch, hregister] at h
    exact ⟨server, bind, rfl, (Option.some.inj h).symm⟩
  · rw [hregister] at h
    cases h

theorem moves_of_step {e : WriterEvent} (h : s.step e = some t) : Moves s e t := by
  cases e with
  | install k register os =>
      obtain ⟨session, hk, h⟩ := Option.bind_eq_some_iff.mp h
      rw [Option.ite_none_right_eq_some] at h
      obtain ⟨⟨hgreeted, hrun, hfree⟩, hinstall⟩ := h
      obtain ⟨server, bind, haccepted, rfl⟩ := install_eq_some hinstall
      exact .installed hk hgreeted hrun hfree haccepted
  | acknowledge k o =>
      obtain ⟨session, hk, h⟩ := Option.bind_eq_some_iff.mp h
      obtain ⟨⟨r, ack⟩, hacking, rfl⟩ := Option.map_eq_some_iff.mp h
      exact .acknowledged hk hacking
  | other e =>
      rw [Writers.step, Option.ite_none_right_eq_some] at h
      obtain ⟨hfree, h⟩ := h
      obtain ⟨hub, hstep, rfl⟩ := Option.map_eq_some_iff.mp h
      exact .went hfree hstep

/-- **A branch that accepts a registration is its two halves**, with nothing in
between. -/
theorem control_eq_install_acknowledge {register : RegisterService} {os : BindOutcome}
    {o : WriteOutcome} {hub : Hub} {server : Server} {bind : EffectiveBind}
    (hk : s.hub.sessions.lookup k = some session) (hfree : (s.channels k).acking = none)
    (haccepted : (s.hub.lent session).registerService register os = (server, .accepted bind))
    (h : s.hub.step (.control k (.incoming (.registerService register) os o)) = some hub) :
    ∃ mid, s.step (.install k register os) = some mid ∧
      (mid.step (.acknowledge k o)).map (·.hub) = some hub := by
  obtain ⟨session', server', writes, hk', hgreeted, hbranch, hstep, rfl⟩ := Hub.did_of_step h
  obtain rfl := Option.some.inj (hk.symm.trans hk')
  have hrun : (s.hub.lent session).phase = .running := Server.running_of_branch hbranch hstep
  have hwriting : server.writing (.registerAck ⟨register.serviceId, bind⟩) o = (server', writes) := by
    simp only [Server.step, hrun, Server.onIncoming, haccepted] at hstep
    exact Option.some.inj hstep
  obtain ⟨mid, hmid⟩ : ∃ mid, s.install k session register os = some mid := by
    unfold install
    rw [haccepted]
    exact ⟨_, rfl⟩
  have hinstall : s.step (.install k register os) = some mid := by
    simp only [step, hk, Option.bind_some]
    rw [if_pos ⟨hgreeted, hrun, hfree⟩]
    exact hmid
  obtain ⟨server₁, bind₁, haccepted₁, rfl⟩ := install_eq_some hmid
  obtain ⟨rfl, hbind⟩ := Prod.mk.inj (haccepted.symm.trans haccepted₁)
  cases hbind
  refine ⟨_, hinstall, ?_⟩
  simp only [step, AList.lookup_insert, Option.bind_some, Function.update_self, Option.map_some,
    acknowledge]
  rw [show Hub.lent _ _ = server from rfl, hwriting]
  simp only [Hub.branch, haccepted]
  unfold Hub.conclude
  rcases hphase : server'.phase with - | result
  · dsimp only
    rw [AList.insert_insert]
  · have hbreaks : Hub.breaks (.incoming (.registerService register) os o) server' = false := by
      rcases server.writing_cases (.registerAck ⟨register.serviceId, bind⟩) o with
        ⟨-, hw⟩ | ⟨-, error, hw⟩
      · obtain ⟨rfl, -⟩ := Prod.mk.inj (hw.symm.trans hwriting)
        rw [(Server.registerService_accepted haccepted).2.2.2.2.2.2, hrun] at hphase
        cases hphase
      · obtain ⟨rfl, -⟩ := Prod.mk.inj (hw.symm.trans hwriting)
        rfl
    rw [hbreaks]
    simp only [Bool.false_eq_true, if_false, AList.insert_insert]

/-! ### The order on the stream -/

/-- The `RegisterAck` of the registration is among the frames. -/
def Acked (sent : List Sent) (r : RegistrationId) (service : ServiceId) : Prop :=
  ∃ bind, ⟨some r, .registerAck ⟨service, bind⟩, .done⟩ ∈ sent

/-- An `Open` comes after the `RegisterAck` of the registration that queued it. -/
def Ordered (sent : List Sent) : Prop :=
  ∀ (i : Nat) f v, sent[i]? = some f → f.message = .open v →
    ∃ r, f.source = some r ∧ Acked (sent.take i) r v.serviceId

theorem Ordered.append {sent frames : List Sent} (h : Ordered sent)
    (hframes : ∀ f ∈ frames, ∀ v, f.message = .open v →
      ∃ r, f.source = some r ∧ Acked sent r v.serviceId) : Ordered (sent ++ frames) := by
  intro i f v hi hv
  rcases Nat.lt_or_ge i sent.length with hlt | hge
  · rw [List.getElem?_append_left hlt] at hi
    rw [List.take_append_of_le_length hlt.le]
    exact h i f v hi hv
  · rw [List.getElem?_append_right hge] at hi
    obtain ⟨r, hr, bind, hmem⟩ := hframes f (List.mem_of_getElem? hi) v hv
    refine ⟨r, hr, bind, ?_⟩
    rw [List.take_append, List.take_of_length_le hge]
    exact List.mem_append_left _ hmem

/-- The peer of the Session has been told of the registration, is being told,
or is gone. -/
inductive Told (s : Writers) (k : ContextId) (r : RegistrationId) (service : ServiceId) : Prop
  | acking (bind : EffectiveBind) (h : (s.channels k).acking = some (r, ⟨service, bind⟩))
  | acked (h : Acked (s.channels k).sent r service)
  | gone (h : s.hub.Over k)

/-- What holds throughout every run. -/
structure Announced (s : Writers) : Prop where
  numbered : s.hub.Numbered
  policy : ∀ k session, s.hub.sessions.lookup k = some session →
    session.server.policy = s.hub.policy
  unborn : ∀ k, s.hub.next ≤ k → s.channels k = .empty
  mirrors : ∀ k session, s.hub.sessions.lookup k = some session → (s.channels k).Mirrors session
  tasks : ∀ r task, s.hub.tasks.lookup r = some task →
    task.context < s.hub.next ∧ s.Told task.context r task.serviceId
  queued : ∀ k f v, f ∈ (s.channels k).queued → f.message = .open v →
    ∃ r, f.source = some r ∧ s.Told k r v.serviceId
  sent : ∀ k, Ordered (s.channels k).sent
  booked : ∀ i, s.hub.Bears i → i ∈ s.hub.issued

/-- A channel that holds anything is that of a Session. -/
theorem Announced.lt_next (hs : Announced s) {f : Queued} (hf : f ∈ (s.channels k).queued) :
    k < s.hub.next := by
  by_contra hle
  rw [hs.unborn k (Nat.not_lt.mp hle)] at hf
  cases hf

variable {e : HubEvent} {hub : Hub}

theorem advance_cases (s : Writers) (e : HubEvent) (k : ContextId) :
    (s.hub.speaker e = some k ∧ s.advance e k
      = (s.channels k).after (Hub.takes e) (s.hub.arrival e) (s.hub.writes e)) ∨
    (s.hub.speaker e ≠ some k ∧ s.advance e k = s.channels k) := by
  unfold advance
  rcases s.hub.speaker e with - | a
  · exact .inr ⟨nofun, rfl⟩
  · by_cases hka : k = a
    · subst hka
      exact .inl ⟨rfl, Function.update_self _ _ _⟩
    · exact .inr ⟨fun h => hka (Option.some.inj h).symm, Function.update_of_ne hka _ _⟩

/-- The stream of a Session only grows, and only `acknowledge` ends the wait. -/
theorem advance_grows (s : Writers) (e : HubEvent) (k : ContextId) :
    (s.advance e k).acking = (s.channels k).acking ∧
    ∃ frames, (s.advance e k).sent = (s.channels k).sent ++ frames := by
  rcases s.advance_cases e k with ⟨-, heq⟩ | ⟨-, heq⟩
  · rw [heq]
    exact ⟨rfl, _, rfl⟩
  · rw [heq]
    exact ⟨rfl, [], (List.append_nil _).symm⟩

theorem Told.other {r : RegistrationId} {service : ServiceId} (h : s.Told k r service)
    (hnumbered : s.hub.Numbered) (hk : k < s.hub.next) (hstep : s.hub.step e = some hub) :
    Told ⟨hub, s.advance e⟩ k r service := by
  obtain ⟨hacking, frames, hsent⟩ := s.advance_grows e k
  rcases h with ⟨bind, h⟩ | ⟨bind, h⟩ | h
  · exact .acking bind (hacking.trans h)
  · refine .acked ⟨bind, ?_⟩
    dsimp only
    rw [hsent]
    exact List.mem_append_left _ h
  · exact .gone (Hub.over_step hnumbered hk hstep h)

/-- The channels still show the queues and the streams. -/
theorem mirrors_other (hs : Announced s) (h : s.hub.step e = some hub) (k : ContextId)
    (session' : ServerSession) (hk : hub.sessions.lookup k = some session') :
    (s.advance e k).Mirrors session' := by
  rcases Hub.traffic_of_step hs.policy h hk with
    ⟨hnew, hspeaker, hqueue, hwritten⟩ | ⟨session, hold, htraffic⟩
  · rcases s.advance_cases e k with ⟨hthis, -⟩ | ⟨-, heq⟩
    · cases hspeaker.symm.trans hthis
    · rw [heq, hs.unborn k hnew.ge]
      exact ⟨hqueue.symm, hwritten.symm⟩
  · obtain ⟨hqueued, hsent⟩ := hs.mirrors k session hold
    rcases s.advance_cases e k with ⟨hspeaker, heq⟩ | ⟨hspeaker, heq⟩
    · rw [Hub.Traffic, if_pos hspeaker] at htraffic
      rw [heq]
      refine ⟨?_, ?_⟩
      · dsimp only [Channel.after]
        rw [htraffic.1, List.map_append, ← hqueued]
        split_ifs
        · rw [List.map_tail]
        · rfl
      · dsimp only [Channel.after]
        rw [htraffic.2, List.map_append, ← hsent, List.map_map]
        congr 1
        exact List.map_id _
    · rw [Hub.Traffic, if_neg hspeaker] at htraffic
      rw [heq]
      exact ⟨hqueued.trans htraffic.1.symm, hsent.trans htraffic.2.symm⟩

theorem queued_other (hs : Announced s) (h : s.hub.step e = some hub) (f : Queued) (v : Open)
    (hf : f ∈ (s.advance e k).queued) (hv : f.message = .open v) :
    ∃ r, f.source = some r ∧ Told ⟨hub, s.advance e⟩ k r v.serviceId := by
  have hold (hf : f ∈ (s.channels k).queued) :
      ∃ r, f.source = some r ∧ Told ⟨hub, s.advance e⟩ k r v.serviceId := by
    obtain ⟨r, hr, htold⟩ := hs.queued k f v hf hv
    exact ⟨r, hr, htold.other hs.numbered (hs.lt_next hf) h⟩
  rcases s.advance_cases e k with ⟨hspeaker, heq⟩ | ⟨-, heq⟩
  · rw [heq] at hf
    rcases List.mem_append.mp hf with hf | hf
    · refine hold ?_
      split_ifs at hf
      · exact List.mem_of_mem_tail hf
      · exact hf
    · obtain ⟨r, task, x, rfl, htask, hsource, hservice, -⟩ :=
        Hub.arrival_open (Option.mem_toList.mp hf) hv
      obtain ⟨hlt, htold⟩ := hs.tasks r task htask
      rw [Hub.speaker, htask] at hspeaker
      obtain rfl := Option.some.inj hspeaker
      exact ⟨r, hsource, hservice ▸ htold.other hs.numbered hlt h⟩
  · rw [heq] at hf
    exact hold hf

/-- The queue is read only by a loop that awaits no write: what it holds has
been acknowledged. -/
theorem sent_other (hs : Announced s) (hfree : s.free e = true) (h : s.hub.step e = some hub)
    (k : ContextId) : Ordered (s.advance e k).sent := by
  rcases s.advance_cases e k with ⟨hspeaker, heq⟩ | ⟨-, heq⟩
  · rw [heq]
    refine (hs.sent k).append fun f hf v hv => ?_
    obtain ⟨w, hw, rfl⟩ := List.mem_map.mp hf
    obtain ⟨o, session, rfl, hk, hrun, hhead⟩ := Hub.writes_open h hspeaker hw hv
    rw [← (hs.mirrors k session hk).queued, List.head?_map] at hhead
    obtain ⟨first, hfirst, hopen⟩ := Option.map_eq_some_iff.mp hhead
    obtain ⟨r, hr, htold⟩ := hs.queued k first v (List.mem_of_mem_head? hfirst) hopen
    refine ⟨r, ?_, ?_⟩
    · change (s.channels k).queued.head?.bind (·.source) = some r
      rw [hfirst]
      exact hr
    · rcases htold with ⟨bind, hacking⟩ | hacked | hover
      · have hnone : (s.channels k).acking.isNone = true := hfree
        rw [hacking] at hnone
        cases hnone
      · exact hacked
      · exact absurd hrun (hover session hk)
  · rw [heq]
    exact hs.sent k

/-- The tasks of other steps are those of before: a registration that is
accepted goes by `install`. -/
theorem tasks_other (hs : Announced s) (hfree : s.free e = true) (h : s.hub.step e = some hub)
    (r : RegistrationId) (task' : ServiceTask) (hr : hub.tasks.lookup r = some task') :
    task'.context < hub.next ∧ Told ⟨hub, s.advance e⟩ task'.context r task'.serviceId := by
  rcases Hub.tasks_step h with hkept | ⟨k, register, os, o, rfl, -, hnext, -⟩
  · obtain ⟨task, htask, hsame, -⟩ := hkept r task' hr
    obtain ⟨hlt, htold⟩ := hs.tasks r task htask
    rw [hsame.context, hsame.serviceId]
    exact ⟨hlt.trans_le (Hub.steady_step h).next, htold.other hs.numbered hlt h⟩
  · obtain ⟨session, server, writes, hk, -, -, -, rfl⟩ := Hub.did_of_step h
    obtain ⟨p, -, heq⟩ := Hub.conclude_frame
      { (s.hub.branch k session (.incoming (.registerService register) os o)).1 with
        counters := server.counters } k
      { (s.hub.branch k session (.incoming (.registerService register) os o)).2 with
        server, written :=
          (s.hub.branch k session (.incoming (.registerService register) os o)).2.written ++ writes }
      (Hub.breaks (.incoming (.registerService register) os o) server)
    rw [heq] at hnext
    simp only [free, hk, Option.all_some, Bool.and_eq_true] at hfree
    rcases hregister : (s.hub.lent session).registerService register os with ⟨new, bind | code⟩
    · rw [hregister] at hfree
      cases hfree.2
    · simp only [Hub.branch, hregister] at hnext
      exact absurd hnext (Nat.succ_ne_self _).symm

theorem Announced.other (hs : Announced s) (hfree : s.free e = true)
    (h : s.hub.step e = some hub) : Announced ⟨hub, s.advance e⟩ where
  numbered := hs.numbered.step h
  policy := Hub.policy_step hs.policy h
  unborn k hk := by
    have hle := (Hub.steady_step h).next.trans hk
    rcases s.advance_cases e k with ⟨hspeaker, -⟩ | ⟨-, heq⟩
    · obtain ⟨session, hsession⟩ := Hub.speaker_lookup h hspeaker
      exact absurd (hs.numbered k session hsession) (Nat.not_lt.mpr hle)
    · exact heq.trans (hs.unborn k hle)
  mirrors := mirrors_other hs h
  tasks := tasks_other hs hfree h
  queued _ := queued_other hs h
  sent := sent_other hs hfree h
  booked := Hub.bears_step hs.booked h

/-- A step of the control loop `k` alone: its Session is put back, and its
channel has changed. -/
theorem Announced.put {c : Channel} {new : ServerSession} {frames : List Sent} (hs : Announced s)
    (hk : s.hub.sessions.lookup k = some session)
    (hsessions : hub.sessions = s.hub.sessions.insert k new) (hpolicy : hub.policy = s.hub.policy)
    (hnext : s.hub.next ≤ hub.next) (hnew : new.server.policy = session.server.policy)
    (hqueued : c.queued = (s.channels k).queued) (hsent : c.sent = (s.channels k).sent ++ frames)
    (hframes : ∀ f ∈ frames, f.message.isQueued = false) (hmirrors : c.Mirrors new)
    (htold : ∀ r service, s.Told k r service →
      Told ⟨hub, Function.update s.channels k c⟩ k r service)
    (htasks : ∀ r task, hub.tasks.lookup r = some task → s.hub.tasks.lookup r = some task ∨
      task.context = k ∧ Told ⟨hub, Function.update s.channels k c⟩ k r task.serviceId)
    (hquiet : Hub.Quiet s.hub hub) : Announced ⟨hub, Function.update s.channels k c⟩ := by
  have hlt := hs.numbered k session hk
  have hlookup (a : ContextId) (h : a ≠ k) :
      hub.sessions.lookup a = s.hub.sessions.lookup a := by
    rw [hsessions, Table.lookup_insert_eq, if_neg h]
  have hself : hub.sessions.lookup k = some new := by rw [hsessions, AList.lookup_insert]
  have hothers {a : ContextId} {r : RegistrationId} {service : ServiceId}
      (h : s.Told a r service) : Told ⟨hub, Function.update s.channels k c⟩ a r service := by
    by_cases hka : a = k
    · subst hka
      exact htold r service h
    · have hchannel : Function.update s.channels k c a = s.channels a :=
        Function.update_of_ne hka c s.channels
      rcases h with ⟨bind, h⟩ | h | h
      · exact .acking bind ((congrArg Channel.acking hchannel).trans h)
      · refine .acked ?_
        dsimp only
        rw [hchannel]
        exact h
      · exact .gone fun new' hnew' => h new' ((hlookup a hka).symm.trans hnew')
  refine ⟨fun a new' ha => ?_, fun a new' ha => ?_, fun a ha => ?_, fun a new' ha => ?_,
    fun r task hr => ?_, fun a f v hf hv => ?_, fun a => ?_, fun i hi => ?_⟩
  · by_cases hka : a = k
    · exact hka ▸ hlt.trans_le hnext
    · exact (hs.numbered a new' ((hlookup a hka).symm.trans ha)).trans_le hnext
  · dsimp only at ha ⊢
    rw [hpolicy]
    by_cases hka : a = k
    · subst hka
      obtain rfl := Option.some.inj (hself.symm.trans ha)
      exact hnew.trans (hs.policy a session hk)
    · exact hs.policy a new' ((hlookup a hka).symm.trans ha)
  · have hka : a ≠ k := (hlt.trans_le (hnext.trans ha)).ne'
    exact (Function.update_of_ne hka c s.channels).trans (hs.unborn a (hnext.trans ha))
  · by_cases hka : a = k
    · subst hka
      obtain rfl := Option.some.inj (hself.symm.trans ha)
      dsimp only
      rw [Function.update_self]
      exact hmirrors
    · dsimp only
      rw [Function.update_of_ne hka]
      exact hs.mirrors a new' ((hlookup a hka).symm.trans ha)
  · rcases htasks r task hr with hold | ⟨rfl, hthis⟩
    · obtain ⟨hcontext, h⟩ := hs.tasks r task hold
      exact ⟨hcontext.trans_le hnext, hothers h⟩
    · exact ⟨hlt.trans_le hnext, hthis⟩
  · have hold : f ∈ (s.channels a).queued := by
      dsimp only at hf
      by_cases hka : a = k
      · subst hka
        rw [Function.update_self, hqueued] at hf
        exact hf
      · rw [Function.update_of_ne hka] at hf
        exact hf
    obtain ⟨r, hr, h⟩ := hs.queued a f v hold hv
    exact ⟨r, hr, hothers h⟩
  · dsimp only
    by_cases hka : a = k
    · subst hka
      rw [Function.update_self, hsent]
      refine (hs.sent a).append fun f hf v hv => ?_
      have hnot := hframes f hf
      rw [hv] at hnot
      cases hnot
    · rw [Function.update_of_ne hka]
      exact hs.sent a
  · dsimp only at hi ⊢
    rw [hquiet.issued]
    exact hs.booked i (hquiet.bears hi)

/-- The first half: the new task is known to nobody but the loop that will
acknowledge it. -/
theorem Announced.install {register : RegisterService} {os : BindOutcome} {server : Server}
    {bind : EffectiveBind} (hs : Announced s)
    (hk : s.hub.sessions.lookup k = some session) (hrun : session.server.phase = .running)
    (hfree : (s.channels k).acking = none)
    (haccepted : (s.hub.lent session).registerService register os = (server, .accepted bind)) :
    Announced {
      hub := { s.hub with
        tasks := s.hub.tasks.insert s.hub.next ⟨k, register.serviceId, .accepting⟩
        next := s.hub.next + 1
        counters := server.counters
        sessions := s.hub.sessions.insert k { session with
          tokens := session.tokens.insert register.serviceId s.hub.next
          served := session.served ++ [(register, .accepted bind)]
          server } }
      channels := Function.update s.channels k
        { s.channels k with acking := some (s.hub.next, ⟨register.serviceId, bind⟩) } } := by
  have hfixed := Server.fixed_registerService (s.hub.lent session) register os
  have hqueue := Server.queue_registerService (s.hub.lent session) register os
  rw [haccepted] at hfixed hqueue
  obtain ⟨hqueued, hsent⟩ := hs.mirrors k session hk
  have hsame : (s.channels k).sent = (s.channels k).sent ++ [] := (List.append_nil _).symm
  refine hs.put hk rfl rfl (Nat.le_succ _) hfixed.policy rfl hsame nofun
    ⟨hqueued.trans hqueue.symm, hsent⟩ ?_ ?_ ?_
  · intro r service htold
    rcases htold with ⟨bind', hacking⟩ | hacked | hover
    · cases hfree.symm.trans hacking
    · refine .acked ?_
      dsimp only
      rw [Function.update_self]
      exact hacked
    · exact absurd hrun (hover session hk)
  · intro r task hr
    dsimp only at hr
    rw [Table.lookup_insert_eq] at hr
    split_ifs at hr with hnew
    · obtain rfl := Option.some.inj hr
      refine .inr ⟨rfl, .acking bind ?_⟩
      dsimp only
      rw [Function.update_self, hnew]
    · exact .inl hr
  · exact ⟨rfl, rfl, rfl, s.hub.tasksFrom_self.insert_idle (.inl rfl), s.hub.relaysFrom_self,
      s.hub.inboxFrom_self⟩

/-- The second half: the peer has been told, or the Session is over. -/
theorem Announced.acknowledge {r : RegistrationId} {ack : RegisterAck} {o : WriteOutcome}
    (hs : Announced s) (hk : s.hub.sessions.lookup k = some session)
    (hacking : (s.channels k).acking = some (r, ack)) :
    Announced (s.acknowledge k session r ack o) := by
  rcases hwrite : (s.hub.lent session).writing (.registerAck ack) o with ⟨server, writes⟩
  obtain ⟨rfl, hdone⟩ := Server.writes_writing hwrite
  have hfixed := Server.fixed_writing (s.hub.lent session) (.registerAck ack) o
  have hqueue := Server.queue_writing (s.hub.lent session) (.registerAck ack) o
  rw [hwrite] at hfixed hqueue
  obtain ⟨hqueued, hsent⟩ := hs.mirrors k session hk
  have hover (h : s.hub.Over k) : server.phase ≠ .running := by
    rcases (s.hub.lent session).writing_cases (.registerAck ack) o with ⟨-, hw⟩ | ⟨-, error, hw⟩
    · obtain ⟨rfl, -⟩ := Prod.mk.inj (hw.symm.trans hwrite)
      exact h session hk
    · obtain ⟨rfl, -⟩ := Prod.mk.inj (hw.symm.trans hwrite)
      exact Server.finish_ne_running _ _
  obtain ⟨⟨pending, hsessions⟩, hpolicy, hnext, htasks⟩ :=
    Hub.conclude_put { s.hub with counters := server.counters } k
      { session with server, written := session.written ++ [(.registerAck ack, o)] } false
  have hended (h : server.phase ≠ .running) : Hub.Over _ k := fun new hnew => by
    rw [hsessions, AList.lookup_insert] at hnew
    obtain rfl := Option.some.inj hnew
    exact h
  unfold Writers.acknowledge
  rw [hwrite]
  refine hs.put hk hsessions hpolicy hnext.ge hfixed.policy rfl rfl ?_
    ⟨hqueued.trans hqueue.symm, ?_⟩ ?_ ?_ ?_
  · intro f hf
    rw [List.mem_singleton.mp hf]
    rfl
  · dsimp only
    rw [List.map_append, hsent]
    rfl
  · intro r' service htold
    rcases htold with ⟨bind, hthis⟩ | ⟨bind, hmem⟩ | hbefore
    · obtain ⟨rfl, rfl⟩ := Prod.mk.inj (Option.some.inj (hacking.symm.trans hthis))
      rcases hdone with rfl | hfailed
      · refine .acked ⟨bind, ?_⟩
        dsimp only
        rw [Function.update_self]
        exact List.mem_append_right _ List.mem_cons_self
      · exact .gone (hended hfailed)
    · refine .acked ⟨bind, ?_⟩
      dsimp only
      rw [Function.update_self]
      exact List.mem_append_left _ hmem
    · exact .gone (hended (hover hbefore))
  · intro r' task hr'
    rw [htasks] at hr'
    exact .inl hr'
  · exact Hub.quiet_conclude rfl rfl rfl s.hub.tasksFrom_self rfl rfl

theorem Announced.step {e : WriterEvent} (hs : Announced s) (h : s.step e = some t) :
    Announced t := by
  cases moves_of_step h with
  | installed hk hgreeted hrun hfree haccepted => exact hs.install hk hrun hfree haccepted
  | acknowledged hk hacking => exact hs.acknowledge hk hacking
  | went hfree hstep => exact hs.other hfree hstep

theorem Announced.init (c : HubConfig) : Announced (init c) where
  numbered := .init c
  policy _ _ h := by cases h
  unborn _ _ := rfl
  mirrors _ _ h := by cases h
  tasks _ _ h := by cases h
  queued _ _ _ h := by cases h
  sent _ _ _ _ h := by cases h
  booked i h := by
    rcases h with ⟨task, htask, -⟩ | ⟨relay, hrelay, -⟩
    · cases htask
    · cases hrelay

/-- A queue that gets longer gets the frame that arrives. -/
theorem arrival_of_longer {f : Queued} {e : WriterEvent} (h : s.step e = some t)
    (hqueued : (t.channels k).queued = (s.channels k).queued ++ [f]) :
    ∃ e', e = .other e' ∧ s.hub.speaker e' = some k ∧ s.hub.arrival e' = some f := by
  have hlonger {queued : List Queued} (hle : queued.length ≤ (s.channels k).queued.length) :
      queued ≠ (s.channels k).queued ++ [f] := by
    rintro rfl
    rw [List.length_append, List.length_singleton] at hle
    exact absurd hle (Nat.not_succ_le_self _)
  -- the two halves of a registration leave the queues alone
  have hupdate {a : ContextId} {c : Channel} (heq : t.channels = Function.update s.channels a c)
      (hc : c.queued = (s.channels a).queued) : False := by
    have hsame : (t.channels k).queued = (s.channels k).queued := by
      rw [heq]
      by_cases hka : k = a
      · subst hka
        rw [Function.update_self, hc]
      · rw [Function.update_of_ne hka]
    exact hlonger (congrArg List.length hsame).le hqueued
  cases moves_of_step h with
  | installed | acknowledged => exact (hupdate rfl rfl).elim
  | @went e hub hfree hstep =>
      refine ⟨e, rfl, ?_⟩
      rcases s.advance_cases e k with ⟨hspeaker, heq⟩ | ⟨-, heq⟩
      · refine ⟨hspeaker, ?_⟩
        dsimp only at hqueued
        rw [heq] at hqueued
        dsimp only [Channel.after] at hqueued
        rcases harrival : s.hub.arrival e with - | g
        · rw [harrival, Option.toList_none, List.append_nil] at hqueued
          refine absurd hqueued (hlonger ?_)
          split_ifs
          · exact List.length_tail ▸ Nat.sub_le _ _
          · exact le_rfl
        · have hlast := congrArg List.getLast? hqueued
          rw [harrival, Option.toList_some, List.getLast?_append, List.getLast?_append] at hlast
          exact hlast
      · exact absurd (heq ▸ hqueued) (hlonger le_rfl)

/-- **An acknowledgement precedes its use.**  In every run, on the stream of
every Session, an `Open` comes from the task of a registration, and the
`RegisterAck` of that registration, under the same `ServiceId`, was written in
full before it.  The channels hold what the Sessions wrote and queued.  And a
task that queues an `Open` has entered its id in the pending map before. -/
theorem ack_precedes_open (c : HubConfig) (es : List WriterEvent) (s : Writers)
    (hrun : exec step (init c) es = some s) :
    (∀ (k : ContextId) (i : Nat) f v, (s.channels k).sent[i]? = some f → f.message = .open v →
      ∃ r bind, f.source = some r ∧
        ⟨some r, .registerAck ⟨v.serviceId, bind⟩, .done⟩ ∈ (s.channels k).sent.take i) ∧
    (∀ k session, s.hub.sessions.lookup k = some session → (s.channels k).Mirrors session) ∧
    ∀ e t k f v, s.step e = some t → (t.channels k).queued = (s.channels k).queued ++ [f] →
      f.message = .open v →
      ∃ r x, f.source = some r ∧ ⟨v.connectionId, k, r, x⟩ ∈ s.hub.issued := by
  have hs : Announced s := exec_inv_of_step (fun _ _ _ hs h => hs.step h) (Announced.init c) hrun
  refine ⟨fun k i f v hi hv => ?_, hs.mirrors, fun e t k f v h hqueued hv => ?_⟩
  · obtain ⟨r, hr, bind, hmem⟩ := hs.sent k i f v hi hv
    exact ⟨r, bind, hr, hmem⟩
  · obtain ⟨e, rfl, hspeaker, harrival⟩ := arrival_of_longer h hqueued
    obtain ⟨r, task, x, rfl, htask, hsource, -, hstate⟩ := Hub.arrival_open harrival hv
    rw [Hub.speaker, htask] at hspeaker
    obtain rfl := Option.some.inj hspeaker
    refine ⟨r, x, hsource, hs.booked _ (.inl ⟨task, htask, rfl, ?_⟩)⟩
    rw [hstate]
    rfl

/-- The listener is bound, an external connection comes and its `Open` is
queued, all before the acknowledgement is written. -/
def earlyOpen (id : SessionId) (c : ConnectionId) : List WriterEvent :=
  [.other (.connect id none legacyPeer), .other (.greet 0 .done),
    .install 0 webService.registration (.bound (.v6 localhostOctets 1000)),
    .other (.accept 1 (some c)), .other (.insert 1 0), .other (.advertise 1),
    .acknowledge 0 .done, .other (.control 0 (.outbound .done))]

/-- The server after that run. -/
def afterEarlyOpen : Writers :=
  (exec step (init Hub.smallHub) (earlyOpen Hub.sampleId Hub.sampleConnection)).get
    (by decide +kernel)

/-- The `Open` is the third frame, and the acknowledgement is among the first
two. -/
theorem ack_precedes_open_early :
    exec step (init Hub.smallHub) (earlyOpen Hub.sampleId Hub.sampleConnection)
      = some afterEarlyOpen ∧
    ∃ r bind, r = 1 ∧ ⟨some r, .registerAck ⟨webService.id, bind⟩, .done⟩
      ∈ (afterEarlyOpen.channels 0).sent.take 2 := by
  have hrun := Option.eq_some_of_isSome (o := exec step (init Hub.smallHub)
    (earlyOpen Hub.sampleId Hub.sampleConnection)) (by decide +kernel)
  refine ⟨hrun, ?_⟩
  obtain ⟨r, bind, hsource, hmem⟩ := (ack_precedes_open Hub.smallHub _ afterEarlyOpen hrun).1 0 2
    ⟨some 1, .open ⟨webService.id, Hub.sampleConnection⟩, .done⟩
    ⟨webService.id, Hub.sampleConnection⟩ (by decide +kernel) rfl
  exact ⟨r, bind, (Option.some.inj hsource).symm, hmem⟩

end Writers

end Eggtunnel
