/-
Eggtunnel/Circuit.lean

From an external connection to the target of its Service.

A circuit has two halves.  A `run_service` task accepts an external connection,
enters a `ConnectionId` for it and sends an `Open`; the client answers with a
`handle_open` task, which connects the target and comes back with a data
connection that names the `Open`; `accept_data_hello` joins the two.

Here the server with all its Sessions is one machine, one client is another, and
the frames of its control connection and its data connections are in between.
The server's part is unrestricted: other clients, frames of any kind on any
control connection and data connections of anybody are events of the server.

The main results are `joins_the_right_ends` and `own_stream_is_honoured`.
-/
import Eggtunnel.AckOrder
import Eggtunnel.Dial
import Eggtunnel.Reuse
import Eggtunnel.Shutdown
import Eggtunnel.Workers

namespace Eggtunnel

/-! ### `Open`s on the server -/

namespace Hub

variable {s t : Hub} {e : HubEvent} {c : HubConfig} {k : ContextId} {o : Open}
  {session : ServerSession} {id : SessionId} {principal : Principal}

theorem issued_step (h : s.step e = some t) {i : Issue} (hi : i ∈ s.issued) : i ∈ t.issued := by
  cases idStep_of_step h with
  | quiet hquiet => exact hquiet.issued ▸ hi
  | generate => exact hi
  | issue r task session c now hat hstate ht hroom =>
      unfold Hub.insert at ht
      split_ifs at ht
      · exact absurd ‹_› (Nat.not_le.mpr hroom)
      · obtain rfl := Option.some.inj ht
        exact List.mem_cons_of_mem _ hi
  | deliver d now task session entry hd hk hentry hservice hnow htasks hrelays hinbox hgenerated
      hissued => exact hissued ▸ hi

/-- The `Open` carries the id of an external connection of the Session, accepted for
the Service that it names. -/
def Opened (s : Hub) (k : ContextId) (o : Open) : Prop :=
  ∃ r x, (⟨o.connectionId, k, r, x⟩ : Issue) ∈ s.issued ∧ r < s.next ∧
    ∀ k' service, s.Home r k' service → k' = k ∧ service = o.serviceId

theorem Opened.step (ho : s.Opened k o) (hs : SingleUse c s) (h : s.step e = some t) :
    t.Opened k o := by
  obtain ⟨r, x, hissued, hr, hhome⟩ := ho
  refine ⟨r, x, issued_step h hissued, hr.trans_le (steady_step h).next, ?_⟩
  intro k' service hthen
  rcases home_step hs h hthen with hold | ⟨hnew, -⟩
  · exact hhome k' service hold
  · exact absurd hr (hnew ▸ lt_irrefl _)

/-- The entry of an `Open` is one for its Service. -/
theorem Opened.entry (ho : s.Opened k o) {entry : PendingEntry}
    (hentry : s.entryOf k o.connectionId = some entry) : entry.serviceId = o.serviceId := by
  obtain ⟨r, x, hissued, -, hhome⟩ := ho
  have hhere : s.Home r k entry.serviceId := .entry _ entry hentry rfl ⟨x, hissued⟩
  exact (hhome k _ hhere).2

/-- A task advertises what it has entered itself. -/
theorem opened_of_advertising (hs : SingleUse c s) (hhoused : Housed s) {r : RegistrationId}
    {task : ServiceTask} {x : ExternalId} (hr : s.tasks.lookup r = some task)
    (hservice : task.serviceId = o.serviceId)
    (hstate : task.state = .advertising o.connectionId x) : s.Opened task.context o := by
  have hhere : s.Home r task.context o.serviceId := .task task hr rfl hservice
  have hissued := hs.single.bears ⟨o.connectionId, task.context, r, x⟩
    (.inl ⟨task, hr, rfl, by rw [hstate]; rfl⟩)
  refine ⟨r, x, hissued, hhoused.below _ _ _ hhere, ?_⟩
  intro k' service hthere
  exact hhoused.one _ _ _ _ _ hthere hhere

/-- Every `Open` in the queue of the Session has been issued in it. -/
def Queues (s : Hub) (k : ContextId) : Prop :=
  ∀ session o, s.sessions.lookup k = some session → .open o ∈ session.server.queue → s.Opened k o

theorem Queues.step (hq : s.Queues k) (hs : Staffed c s) (h : s.step e = some t) :
    t.Queues k := by
  intro session' o hk' hmem
  have hpolicy (a : ContextId) (old : ServerSession) (ha : s.sessions.lookup a = some old) :
      old.server.policy = s.policy :=
    (hs.tabled.tidy a old ha).policy.trans hs.tabled.policy.symm
  rcases traffic_of_step hpolicy h hk' with ⟨-, -, hnone, -⟩ | ⟨session, hk, htraffic⟩
  · rw [hnone] at hmem
    cases hmem
  · by_cases hspeaker : s.speaker e = some k
    · rw [Traffic, if_pos hspeaker] at htraffic
      rw [htraffic.1] at hmem
      rcases List.mem_append.mp hmem with hold | hnew
      · refine (hq session o hk ?_).step hs.use h
        split_ifs at hold
        · exact List.mem_of_mem_tail hold
        · exact hold
      · obtain ⟨f, hf, hmessage⟩ := List.mem_map.mp hnew
        obtain ⟨r, task, x, rfl, hr, -, hservice, hstate⟩ :=
          arrival_open (Option.mem_toList.mp hf) hmessage
        rw [speaker, hr] at hspeaker
        obtain rfl : task.context = k := Option.some.inj hspeaker
        exact (opened_of_advertising hs.use hs.housed hr hservice hstate).step hs.use h
    · rw [Traffic, if_neg hspeaker] at htraffic
      rw [htraffic.1] at hmem
      exact (hq session o hk hmem).step hs.use h

theorem queues_init (c : HubConfig) (k : ContextId) : (init c).Queues k := by
  intro session o hk
  cases hk

/-- What is written to the client was in the queue. -/
theorem Queues.writes (hq : s.Queues k) (h : s.step e = some t) (hspeaker : s.speaker e = some k)
    {w : Write} (hw : w ∈ s.writes e) (ho : w.1 = .open o) : s.Opened k o := by
  obtain ⟨o', session, -, hk, -, hhead⟩ := writes_open h hspeaker hw ho
  exact hq session o hk (List.mem_of_mem_head? hhead)

/-- The `SessionId` has been given to the Session `k` of the principal and to none
besides. -/
structure HasId (s : Hub) (k : ContextId) (id : SessionId) (principal : Principal) : Prop where
  used : id ∈ s.sessionIds
  below : k < s.next
  own : ∀ session, s.sessions.lookup k = some session →
    session.server.sessionId = id ∧ session.principal = principal
  only : ∀ k' session, s.sessions.lookup k' = some session → session.server.sessionId = id → k' = k

/-- A Session that was not there has an id that was not used. -/
theorem unused_of_new (hnumbered : Numbered s) (hfresh : s.fresh e = true)
    (h : s.step e = some t) (hk : t.sessions.lookup s.next = some session) :
    session.server.sessionId ∉ s.sessionIds := by
  have hnone (session : ServerSession) (hk : s.sessions.lookup s.next = some session) : False :=
    absurd (hnumbered _ session hk) (lt_irrefl _)
  cases sessionMove_of_step h hk with
  | still session hk => exact (hnone session hk).elim
  | greeted o session hk => exact (hnone session hk).elim
  | unreached o session error hk => exact (hnone session hk).elim
  | moved e session server writes pending hk => exact (hnone session hk).elim
  | begun id principal negotiated hk hsession =>
      subst hsession
      exact of_decide_eq_true hfresh

theorem HasId.step (ho : s.HasId k id principal) (hnumbered : Numbered s)
    (hfresh : s.fresh e = true) (h : s.step e = some t) : t.HasId k id principal where
  used := sessionIds_of_step h ho.used
  below := ho.below.trans_le (steady_step h).next
  own session' hk' := by
    rcases (steady_step h).sessions k session' hk' with ⟨session, hk, hsame⟩ | ⟨hnew, -⟩
    · rw [hsame.server.sessionId, hsame.principal]
      exact ho.own session hk
    · exact absurd ho.below (hnew ▸ lt_irrefl _)
  only k' session' hk' hid := by
    rcases (steady_step h).sessions k' session' hk' with ⟨session, hk, hsame⟩ | ⟨rfl, -⟩
    · exact ho.only k' session hk (hsame.server.sessionId.symm.trans hid)
    · exact absurd ho.used (hid ▸ unused_of_new hnumbered hfresh h hk')

/-- Every Session has an id of its own. -/
theorem hasId_step (hs : Staffed c s)
    (hhasId : ∀ k session, s.sessions.lookup k = some session →
      s.HasId k session.server.sessionId session.principal)
    (hfresh : s.fresh e = true) (h : s.step e = some t) (k : ContextId) (session' : ServerSession)
    (hk' : t.sessions.lookup k = some session') :
    t.HasId k session'.server.sessionId session'.principal := by
  have ht := hs.step hfresh h
  rcases (steady_step h).sessions k session' hk' with ⟨session, hk, hsame⟩ | ⟨rfl, -⟩
  · rw [hsame.server.sessionId, hsame.principal]
    exact (hhasId k session hk).step hs.tabled.numbered hfresh h
  · refine ⟨ht.use.registered.ids _ session' hk', ht.tabled.numbered _ session' hk', ?_, ?_⟩
    · intro session'' hk''
      rw [Option.some.inj (hk''.symm.trans hk')]
      exact ⟨rfl, rfl⟩
    · intro k' session'' hk'' hid
      rcases (steady_step h).sessions k' session'' hk'' with ⟨session, hk, hsame⟩ | ⟨hnew, -⟩
      · refine absurd (hs.use.registered.ids k' session hk) ?_
        rw [← hsame.server.sessionId, hid]
        exact unused_of_new hs.tabled.numbered hfresh h hk'
      · exact hnew

/-- A stream is sent by the data connection that waits for the lock. -/
theorem deliveries_step (h : s.step e = some t) {x : Delivery} (hx : x ∈ t.deliveries) :
    x ∈ s.deliveries ∨ s.hellos.lookup x.stream = some x.task := by
  cases idStep_of_step h with
  | quiet hquiet => exact .inl (hquiet.deliveries ▸ hx)
  | generate => exact .inl hx
  | issue r task session c now hat hstate ht hroom =>
      unfold Hub.insert at ht
      split_ifs at ht
      · exact absurd ‹_› (Nat.not_le.mpr hroom)
      · obtain rfl := Option.some.inj ht
        exact .inl hx
  | deliver d now task session entry hd hk hentry hservice hnow htasks hrelays hinbox hgenerated
      hissued hdeliveries =>
      rw [hdeliveries] at hx
      rcases List.mem_cons.mp hx with rfl | hold
      · exact .inr hd
      · exact .inl hold

theorem next_dataHello (s : Hub) (hello : DataHello) (principal : Principal) :
    (s.dataHello hello principal).next = s.next + 1 := by
  rcases s.dataHello_cases hello principal with ⟨a, -, heq⟩ | ⟨-, heq⟩
  · rw [heq]
  · rw [heq]
    rfl

/-- Data connections have numbers of their own. -/
structure Streamed (s : Hub) : Prop where
  hellos : ∀ a task, s.hellos.lookup a = some task → a < s.next
  deliveries : ∀ x ∈ s.deliveries, x.stream < s.next

theorem Streamed.step (hs : Streamed s) (h : s.step e = some t) : Streamed t where
  hellos a task ha := by
    rcases hellos_step h ha with hold | ⟨rfl, rfl, -⟩
    · exact (hs.hellos a task hold).trans_le (steady_step h).next
    · obtain rfl := did_of_step h
      rw [next_dataHello]
      exact Nat.lt_succ_self _
  deliveries x hx := by
    refine LT.lt.trans_le ?_ (steady_step h).next
    rcases deliveries_step h hx with hold | hwaits
    · exact hs.deliveries x hold
    · exact hs.hellos _ _ hwaits

theorem Streamed.init (c : HubConfig) : Streamed (init c) :=
  ⟨fun _ _ ha => (by cases ha), fun _ hx => (by cases hx)⟩

/-- A data connection that fits its entry is sent to the task that waits for it. -/
theorem resolve_delivers {a : StreamId} {task : HelloTask} {entry : PendingEntry} {now : Instant}
    (ha : s.hellos.lookup a = some task) (hk : s.sessions.lookup task.context = some session)
    (hentry : session.pending.lookup task.hello.connectionId = some entry)
    (hservice : entry.serviceId = task.hello.serviceId) (hnow : now < entry.expires)
    (hreceiving : s.receiving entry.dataTx = true) :
    ∃ t, s.step (.resolve a now) = some t ∧ t.inbox.lookup entry.dataTx = some a ∧
      (a, .ok ()) ∈ t.results := by
  refine ⟨s.resolve a task session now, by simp [step, ha, hk], ?_⟩
  have hfits : ¬ (entry.serviceId ≠ task.hello.serviceId ∨ entry.expires ≤ now) :=
    not_or.mpr ⟨not_not.mpr hservice, Nat.not_le.mpr hnow⟩
  unfold resolve claimPending
  rw [hentry]
  dsimp only
  -- the entry is out of the map, and the tasks are as they were
  rw [if_neg hfits, if_pos (show Hub.receiving (s.setPending _ _ _) _ = true from hreceiving)]
  exact ⟨AList.lookup_insert _, List.mem_append_right _ List.mem_cons_self⟩

/-- What a run has made of the Sessions. -/
structure Kept (c : HubConfig) (s : Hub) : Prop where
  staffed : Staffed c s
  hasId : ∀ k session, s.sessions.lookup k = some session →
    s.HasId k session.server.sessionId session.principal
  queues : ∀ k, s.Queues k
  streamed : Streamed s

theorem kept_exec {es : List HubEvent}
    (hfresh : AllSteps step (fun s e => s.fresh e = true) (init c) es)
    (hrun : exec step (init c) es = some s) : Kept c s := by
  refine exec_inv (fun s e t hs hf h => ?_) ?_ hfresh hrun
  · exact ⟨hs.staffed.step hf h, hasId_step hs.staffed hs.hasId hf h,
      fun k => (hs.queues k).step hs.staffed h, hs.streamed.step h⟩
  · exact ⟨.init c, fun k session hk => (by cases hk), queues_init c, .init c⟩

end Hub

/-! ### The machine -/

/-- The client has been authenticated: it has its Session on a server that has got
anywhere. -/
structure CircuitConfig where
  server : HubConfig
  history : List HubEvent
  hub : Hub
  fresh : AllSteps Hub.step (fun s e => s.fresh e = true) (Hub.init server) history
  reached : exec Hub.step (Hub.init server) history = some hub
  context : ContextId
  session : ServerSession
  given : hub.sessions.lookup context = some session
  greeted : session.greeted = true
  policy : RuntimePolicy
  desired : List ClientService
  valid : validateServices policy desired = .ok ()
  counters : Counters
  transport : DataTransport

/-- `dials` are the `handle_open` tasks that have been spawned, in order; `outgoing`
are those whose `DataHello` is on its way, and `streams` says which data connection
of the server is whose. -/
structure Circuit where
  hub : Hub
  client : Client
  down : List Message
  dials : Table Nat Dial
  spawned : Nat
  outgoing : List Nat
  streams : Table StreamId Nat

/-- What can happen at either end. -/
inductive CircuitEvent
  /-- any event of the server -/
  | server (e : HubEvent)
  /-- the client reads the next frame -/
  | deliver (o : WriteOutcome) (now : Instant)
  /-- any other event of the client -/
  | client (e : ClientEvent)
  /-- an await of a `handle_open` task ends -/
  | dial (n : Nat) (now : Instant) (e : DialEvent)
  /-- the server reads a `DataHello` of the client -/
  | arrive (n : Nat)

/-- The events of the client that are not its own choice. -/
def ClientEvent.isWired : ClientEvent → Bool
  | .incoming _ _ | .openFinished _ _ => true
  | _ => false

/-- The frames that were written whole. -/
def wholeFrames (writes : List Write) : List Message :=
  writes.filterMap fun w => if w.2 = .done then some w.1 else none

/-- The task that a step of the client has spawned. -/
def spawnedBy (before after : Client) : Option OpenTask :=
  if before.opens.length < after.opens.length then after.opens.getLast? else none

namespace Circuit

variable {c : CircuitConfig} {s t : Circuit} {e : CircuitEvent}

/-- The Session is greeted, and the client has read `AuthOk`. -/
def init (c : CircuitConfig) : Circuit where
  hub := c.hub
  client := (Client.start c.policy c.session.server.sessionId
    (c.session.server.negotiated.has capabilityRegisterReject) (.new c.desired) c.counters []).1
  down := []
  dials := ∅
  spawned := 0
  outgoing := []
  streams := ∅

/-- `opens.spawn(handle_open(..))`. -/
def spawn (c : CircuitConfig) (s : Circuit) (task : Option OpenTask) (now : Instant) : Circuit :=
  match task with
  | some task =>
      { s with
        dials := s.dials.insert s.spawned
          (.start task c.session.server.sessionId c.transport c.policy.timeouts now)
        spawned := s.spawned + 1 }
  | none => s

/-- An await has ended.  A `DataHello` that was written whole is on its way, and a
task that has ended reports to the Session. -/
def settle (s : Circuit) (n : Nat) (before after : Dial) : Option Circuit :=
  let outgoing := if after.greeted && !before.greeted then s.outgoing ++ [n] else s.outgoing
  let s := { s with dials := s.dials.insert n after, outgoing }
  match after.result with
  | none => some s
  | some result =>
      (s.client.step (.openFinished after.task.frame.connectionId (!result.isOk))).map fun r =>
        { s with client := r.1 }

/-- One move of one party. -/
def step (c : CircuitConfig) (s : Circuit) : CircuitEvent → Option Circuit
  | .server e => (s.hub.step e).map fun hub =>
      { s with
        hub
        down := s.down ++
          if s.hub.speaker e = some c.context then wholeFrames (s.hub.writes e) else [] }
  | .deliver o now =>
      match s.down with
      | m :: down => (s.client.step (.incoming m o)).map fun r =>
          { s with down, client := r.1 }.spawn c (spawnedBy s.client r.1) now
      | [] => none
  | .client e =>
      if e.isWired then none else (s.client.step e).map fun r => { s with client := r.1 }
  -- the tasks of a Session that is gone are aborted
  | .dial n now e => (s.dials.lookup n).bind fun d =>
      if d.task ∈ s.client.opens ∧ (e = .cancelled → s.client.phase = .draining false) then
        (d.step (now, e)).bind (s.settle n d)
      else none
  | .arrive n => (s.dials.lookup n).bind fun d =>
      if n ∈ s.outgoing then
        (s.hub.step (.dataHello d.hello c.session.principal)).map fun hub =>
          { s with
            hub
            outgoing := s.outgoing.erase n
            streams := s.streams.insert s.hub.next n }
      else none

/-- The ids that the server draws have not been drawn before. -/
def fresh (s : Circuit) : CircuitEvent → Bool
  | .server e => s.hub.fresh e
  | _ => true

/-! ### What is on its way -/

/-- The task answers an `Open` of the client's own Session, for the Service that is
active under the id it names. -/
structure Dialled (c : CircuitConfig) (hub : Hub) (task : OpenTask) : Prop where
  opened : hub.Opened c.context task.frame
  service : task.service.id = task.frame.serviceId

/-- The task has written its `DataHello`. -/
def Greets (dials : Table Nat Dial) (n : Nat) : Prop :=
  ∃ d, dials.lookup n = some d ∧ d.greeted = true

/-- What holds between the two halves. -/
structure Joined (c : CircuitConfig) (s : Circuit) : Prop where
  staffed : Hub.Staffed c.server s.hub
  hasId : s.hub.HasId c.context c.session.server.sessionId c.session.principal
  queues : s.hub.Queues c.context
  streamed : s.hub.Streamed
  represented : s.client.services.Represented s.client.policy.limits.servicesPerSession
  down : ∀ o, .open o ∈ s.down → s.hub.Opened c.context o
  opens : ∀ task ∈ s.client.opens, Dialled c s.hub task
  dials : ∀ n d, s.dials.lookup n = some d → d.Sound ∧
    d.sessionId = c.session.server.sessionId ∧ Dialled c s.hub d.task ∧ n < s.spawned
  outgoing : ∀ n ∈ s.outgoing, Greets s.dials n
  streams : ∀ a n, s.streams.lookup a = some n → a < s.hub.next ∧ Greets s.dials n
  once : s.outgoing.Nodup ∧ (∀ a n, s.streams.lookup a = some n → n ∉ s.outgoing) ∧
    ∀ a b n, s.streams.lookup a = some n → s.streams.lookup b = some n → a = b
  hellos : ∀ a n d task, s.streams.lookup a = some n → s.dials.lookup n = some d →
    s.hub.hellos.lookup a = some task → task = ⟨c.context, d.hello, c.session.principal⟩
  deliveries : ∀ x ∈ s.hub.deliveries, ∀ n d, s.streams.lookup x.stream = some n →
    s.dials.lookup n = some d → x.task = ⟨c.context, d.hello, c.session.principal⟩

variable {hub : Hub} {task : OpenTask}

theorem Dialled.step (h : Dialled c s.hub task) (hs : Joined c s) {event : HubEvent}
    (hstep : s.hub.step event = some hub) : Dialled c hub task :=
  ⟨h.opened.step hs.staffed.use hstep, h.service⟩

/-- A data connection of the client that has found a Session has found its own. -/
theorem context_of_finds (hs : Joined c s) {task : HelloTask} (h : s.hub.Finds task)
    (hid : task.hello.sessionId = c.session.server.sessionId) : task.context = c.context := by
  obtain ⟨-, session, hk, -, hsession, -⟩ := hs.staffed.use.registered.findsLive h
  exact hs.hasId.only _ session hk (hsession.trans hid)

/-- The server moves. -/
theorem Joined.server (hs : Joined c s) {event : HubEvent} (hfresh : s.hub.fresh event = true)
    (hstep : s.hub.step event = some hub) : Joined c { s with hub } where
  staffed := hs.staffed.step hfresh hstep
  hasId := hs.hasId.step hs.staffed.tabled.numbered hfresh hstep
  queues := hs.queues.step hs.staffed hstep
  streamed := hs.streamed.step hstep
  represented := hs.represented
  down o ho := (hs.down o ho).step hs.staffed.use hstep
  opens task htask := (hs.opens task htask).step hs hstep
  dials n d hd := by
    obtain ⟨hsound, hid, hdialled, hlt⟩ := hs.dials n d hd
    exact ⟨hsound, hid, hdialled.step hs hstep, hlt⟩
  outgoing := hs.outgoing
  streams a n ha := by
    obtain ⟨hlt, hgreets⟩ := hs.streams a n ha
    exact ⟨hlt.trans_le (Hub.steady_step hstep).next, hgreets⟩
  once := hs.once
  hellos a n d task ha hd htask := by
    rcases Hub.hellos_step hstep htask with hold | ⟨-, hnew, -⟩
    · exact hs.hellos a n d task ha hd hold
    · exact absurd (hs.streams a n ha).1 (hnew ▸ lt_irrefl _)
  deliveries x hx n d ha hd := by
    rcases Hub.deliveries_step hstep hx with hold | hwaits
    · exact hs.deliveries x hold n d ha hd
    · exact hs.hellos x.stream n d x.task ha hd hwaits

/-- What the server has written whole is on its way to the client. -/
theorem opened_of_written (hs : Joined c s) {event : HubEvent} {o : Open}
    (hstep : s.hub.step event = some hub) (hspeaker : s.hub.speaker event = some c.context)
    (ho : .open o ∈ wholeFrames (s.hub.writes event)) : hub.Opened c.context o := by
  obtain ⟨w, hw, hwhole⟩ := List.mem_filterMap.mp ho
  split_ifs at hwhole
  have hopened := hs.queues.writes hstep hspeaker hw (Option.some.inj hwhole)
  exact hopened.step hs.staffed.use hstep

/-- The client moves by itself. -/
theorem Joined.client (hs : Joined c s) {event : ClientEvent} {client : Client} {fx : Effects}
    (hstep : s.client.step event = some (client, fx))
    (hopen : ∀ frame o, event = .incoming (.open frame) o → s.hub.Opened c.context frame) :
    Joined c { s with client } where
  staffed := hs.staffed
  hasId := hs.hasId
  queues := hs.queues
  streamed := hs.streamed
  represented := by
    rw [(Client.fixed_step hstep).1]
    exact Client.represented_of_step rfl hs.represented hstep
  down := hs.down
  opens task htask := by
    rcases Client.opens_of_step hstep htask with hold | ⟨o, rfl, hactive⟩
    · exact hs.opens task hold
    · exact ⟨hopen _ o rfl, (hs.represented.active _ _ hactive).1⟩
  dials := hs.dials
  outgoing := hs.outgoing
  streams := hs.streams
  once := hs.once
  hellos := hs.hellos
  deliveries := hs.deliveries

/-- A task is where it was, or further on. -/
structure Follows (before after : Dial) : Prop where
  hello : after.hello = before.hello
  greeted : before.greeted = true → after.greeted = true

theorem Greets.of_insert {dials : Table Nat Dial} {n m : Nat} {d : Dial} (h : Greets dials n)
    (hm : ∀ before, dials.lookup m = some before → Follows before d) :
    Greets (dials.insert m d) n := by
  obtain ⟨before, hbefore, hgreeted⟩ := h
  by_cases hnm : n = m
  · subst hnm
    exact ⟨d, AList.lookup_insert _, (hm before hbefore).greeted hgreeted⟩
  · exact ⟨before, (AList.lookup_insert_ne hnm).trans hbefore, hgreeted⟩

/-- A task is spawned, or goes on. -/
theorem Joined.put (hs : Joined c s) {n spawned : Nat} {d : Dial} (hsound : d.Sound)
    (hid : d.sessionId = c.session.server.sessionId) (hdialled : Dialled c s.hub d.task)
    (hbefore : ∀ before, s.dials.lookup n = some before → Follows before d)
    (hn : n < spawned) (hspawned : s.spawned ≤ spawned) :
    Joined c { s with dials := s.dials.insert n d, spawned } := by
  -- what the task has become known for, it keeps
  have hkept {m : Nat} {d' : Dial} (hd' : (s.dials.insert n d).lookup m = some d')
      (hm : Greets s.dials m) :
      ∃ before, s.dials.lookup m = some before ∧ before.hello = d'.hello := by
    obtain ⟨before, hlookup, -⟩ := hm
    refine ⟨before, hlookup, ?_⟩
    rw [Table.lookup_insert_eq] at hd'
    split_ifs at hd' with hmn
    · subst hmn
      obtain rfl := Option.some.inj hd'
      exact (hbefore before hlookup).hello.symm
    · rw [Option.some.inj (hlookup.symm.trans hd')]
  refine { hs with
    dials := ?_, outgoing := ?_, streams := ?_, hellos := ?_, deliveries := ?_ }
  · intro m d' hd'
    rw [Table.lookup_insert_eq] at hd'
    split_ifs at hd' with hmn
    · obtain rfl := Option.some.inj hd'
      exact ⟨hsound, hid, hdialled, hmn ▸ hn⟩
    · obtain ⟨hsound', hid', hold, hlt⟩ := hs.dials m d' hd'
      exact ⟨hsound', hid', hold, hlt.trans_le hspawned⟩
  · exact fun m hm => (hs.outgoing m hm).of_insert hbefore
  · exact fun a m ha => ⟨(hs.streams a m ha).1, (hs.streams a m ha).2.of_insert hbefore⟩
  · intro a m d' task ha hd' htask
    obtain ⟨before, hlookup, hhello⟩ := hkept hd' (hs.streams a m ha).2
    exact hhello ▸ hs.hellos a m before task ha hlookup htask
  · intro x hx m d' ha hd'
    obtain ⟨before, hlookup, hhello⟩ := hkept hd' (hs.streams _ m ha).2
    exact hhello ▸ hs.deliveries x hx m before ha hlookup

theorem Joined.spawn (hs : Joined c s) (hdialled : Dialled c s.hub task) (now : Instant) :
    Joined c (s.spawn c (some task) now) := by
  refine hs.put Dial.sound_start rfl hdialled (fun before hbefore => ?_) (Nat.lt_succ_self _)
    (Nat.le_succ _)
  exact absurd (hs.dials _ before hbefore).2.2.2 (lt_irrefl _)

/-- A `DataHello` leaves. -/
theorem Joined.send (hs : Joined c s) {n : Nat} (hgreets : Greets s.dials n)
    (hout : n ∉ s.outgoing) (hstreams : ∀ a, s.streams.lookup a ≠ some n) :
    Joined c { s with outgoing := s.outgoing ++ [n] } := by
  obtain ⟨hnodup, hapart, hone⟩ := hs.once
  refine { hs with outgoing := ?_, once := ⟨?_, ?_, hone⟩ }
  · intro m hm
    rcases List.mem_append.mp hm with hold | hnew
    · exact hs.outgoing m hold
    · exact List.mem_singleton.mp hnew ▸ hgreets
  · exact hnodup.append (List.nodup_singleton n) (List.disjoint_singleton.mpr hout)
  · intro a m ha hm
    rcases List.mem_append.mp hm with hold | hnew
    · exact hapart a m ha hold
    · exact hstreams a (List.mem_singleton.mp hnew ▸ ha)

theorem follows_of_step {d d' : Dial} {event : Instant × DialEvent}
    (h : d.step event = some d') : Follows d d' := by
  obtain ⟨htask, hid, -⟩ := Dial.same_step h
  have hhello : d'.hello = d.hello := by rw [Dial.hello, Dial.hello, htask, hid]
  refine ⟨hhello, fun hgreeted => ?_⟩
  unfold Dial.greeted at hgreeted ⊢
  rw [decide_eq_true_eq] at hgreeted ⊢
  rw [hhello]
  cases Dial.did_of_step h with
  | failed | ready | relayed => exact hgreeted
  | greeted | cut => exact List.mem_append_left _ hgreeted

/-- An await of a task ends. -/
theorem Joined.settle (hs : Joined c s) {n : Nat} {d d' : Dial} {event : Instant × DialEvent}
    (hd : s.dials.lookup n = some d) (hstep : d.step event = some d')
    (h : s.settle n d d' = some t) : Joined c t := by
  obtain ⟨hsound, hid, hdialled, hlt⟩ := hs.dials n d hd
  obtain ⟨htask, hid', -⟩ := Dial.same_step hstep
  have hput : Joined c { s with dials := s.dials.insert n d' } := by
    refine hs.put (hsound.step hstep) (hid'.trans hid) (htask ▸ hdialled) ?_ hlt le_rfl
    intro before hbefore
    obtain rfl := Option.some.inj (hd.symm.trans hbefore)
    exact follows_of_step hstep
  have hsent : Joined c { s with
      dials := s.dials.insert n d'
      outgoing := if d'.greeted && !d.greeted then s.outgoing ++ [n] else s.outgoing } := by
    split_ifs with hnow
    · obtain ⟨hafter, hbefore⟩ := (Bool.and_eq_true _ _).mp hnow
      -- the task has greeted just now
      have hnot (hgreets : Greets s.dials n) : False := by
        obtain ⟨d₁, hd₁, hgreeted⟩ := hgreets
        obtain rfl := Option.some.inj (hd.symm.trans hd₁)
        rw [hgreeted] at hbefore
        cases hbefore
      exact hput.send ⟨d', AList.lookup_insert _, hafter⟩ (fun hn => hnot (hs.outgoing n hn))
        fun a ha => hnot (hs.streams a n ha).2
    · exact hput
  unfold Circuit.settle at h
  dsimp only at h
  split at h
  · obtain rfl := Option.some.inj h
    exact hsent
  · obtain ⟨⟨client, fx⟩, hclient, rfl⟩ := Option.map_eq_some_iff.mp h
    exact hsent.client hclient (fun _ _ heq => by cases heq)

/-- A `DataHello` of the client arrives. -/
theorem Joined.arrive (hs : Joined c s) {n : Nat} {d : Dial} (hd : s.dials.lookup n = some d)
    (hn : n ∈ s.outgoing)
    (hstep : s.hub.step (.dataHello d.hello c.session.principal) = some hub) :
    Joined c { s with
      hub
      outgoing := s.outgoing.erase n
      streams := s.streams.insert s.hub.next n } := by
  have hserver : Joined c { s with hub } := hs.server rfl hstep
  have hnext : hub.next = s.hub.next + 1 := by
    obtain rfl := Hub.did_of_step hstep
    exact s.hub.next_dataHello _ _
  obtain ⟨hnodup, hapart, hone⟩ := hs.once
  have hcases {b : StreamId} {m : Nat}
      (hb : (s.streams.insert s.hub.next n).lookup b = some m) :
      (b = s.hub.next ∧ m = n) ∨ s.streams.lookup b = some m := by
    rw [Table.lookup_insert_eq] at hb
    split_ifs at hb with heq
    · exact .inl ⟨heq, (Option.some.inj hb).symm⟩
    · exact .inr hb
  refine { hserver with
    outgoing := ?_, streams := ?_, once := ⟨hnodup.erase n, ?_, ?_⟩, hellos := ?_,
    deliveries := ?_ }
  · exact fun m hm => hs.outgoing m (List.mem_of_mem_erase hm)
  · intro b m hb
    rcases hcases hb with ⟨rfl, rfl⟩ | hold
    · exact ⟨hnext ▸ Nat.lt_succ_self _, hs.outgoing m hn⟩
    · exact hserver.streams b m hold
  · intro b m hb hm
    rcases hcases hb with ⟨-, rfl⟩ | hold
    · exact hnodup.not_mem_erase hm
    · exact hapart b m hold (List.mem_of_mem_erase hm)
  · intro a b m ha hb
    rcases hcases ha with ⟨rfl, rfl⟩ | hold
    · rcases hcases hb with ⟨rfl, -⟩ | hold'
      · rfl
      · exact absurd hn (hapart b m hold')
    · rcases hcases hb with ⟨rfl, rfl⟩ | hold'
      · exact absurd hn (hapart a m hold)
      · exact hone a b m hold hold'
  · intro b m d' task hb hd' htask
    rcases hcases hb with ⟨rfl, rfl⟩ | hold
    · obtain rfl := Option.some.inj (hd.symm.trans hd')
      -- the connection has just found its Session
      rcases Hub.hellos_step hstep htask with hbefore | ⟨heq, -, hfinds⟩
      · exact absurd (hs.streamed.hellos _ _ hbefore) (lt_irrefl _)
      · obtain ⟨k, hello, principal⟩ := task
        obtain ⟨rfl, rfl⟩ := HubEvent.dataHello.inj heq
        have hcontext := context_of_finds hs hfinds (hs.dials m d hd).2.1
        exact hcontext ▸ rfl
    · exact hserver.hellos b m d' task hold hd' htask
  · intro x hx m d' hb hd'
    rcases hcases hb with ⟨hnew, -⟩ | hold
    · -- nothing has been delivered on a connection that was not there
      refine absurd hnew (Nat.ne_of_lt ?_)
      rcases Hub.deliveries_step hstep hx with hbefore | hwaits
      · exact hs.streamed.deliveries x hbefore
      · exact hs.streamed.hellos _ _ hwaits
    · exact hserver.deliveries x hx m d' hold hd'

/-- **One step keeps the two halves joined.** -/
theorem Joined.step (hs : Joined c s) (hfresh : s.fresh e = true)
    (h : Circuit.step c s e = some t) : Joined c t := by
  cases e with
  | server event =>
      obtain ⟨hub, hstep, rfl⟩ := Option.map_eq_some_iff.mp h
      refine { hs.server hfresh hstep with down := ?_ }
      intro o ho
      rcases List.mem_append.mp ho with hold | hnew
      · exact (hs.down o hold).step hs.staffed.use hstep
      · split_ifs at hnew with hspeaker
        · exact opened_of_written hs hstep hspeaker hnew
        · cases hnew
  | deliver o now =>
      unfold Circuit.step at h
      dsimp only at h
      split at h
      · rename_i m down hdown
        obtain ⟨⟨client, fx⟩, hstep, rfl⟩ := Option.map_eq_some_iff.mp h
        have hread : Joined c { s with down, client } := by
          have hclient := hs.client hstep fun frame o heq => by
            cases heq
            exact hs.down frame (hdown ▸ List.mem_cons_self)
          exact { hclient with
            down := fun o ho => hs.down o (hdown ▸ List.mem_cons_of_mem _ ho) }
        cases hspawned : spawnedBy s.client client with
        | none => exact hread
        | some task =>
            refine hread.spawn (hread.opens task ?_) now
            unfold spawnedBy at hspawned
            split_ifs at hspawned
            exact List.mem_of_getLast? hspawned
      · cases h
  | client event =>
      dsimp only [Circuit.step] at h
      split_ifs at h with hwired
      obtain ⟨⟨client, fx⟩, hstep, rfl⟩ := Option.map_eq_some_iff.mp h
      refine hs.client hstep fun frame o heq => ?_
      rw [heq] at hwired
      exact absurd rfl hwired
  | dial n now event =>
      obtain ⟨d, hd, hif⟩ := Option.bind_eq_some_iff.mp h
      split_ifs at hif
      obtain ⟨d', hstep, hsettle⟩ := Option.bind_eq_some_iff.mp hif
      exact hs.settle hd hstep hsettle
  | arrive n =>
      obtain ⟨d, hd, hif⟩ := Option.bind_eq_some_iff.mp h
      split_ifs at hif with hn
      obtain ⟨hub, hstep, rfl⟩ := Option.map_eq_some_iff.mp hif
      exact hs.arrive hd hn hstep

theorem Joined.init (c : CircuitConfig) : Joined c (init c) := by
  have hkept := Hub.kept_exec c.fresh c.reached
  obtain ⟨hopens, -⟩ := Tunnel.idle_start c.policy c.session.server.sessionId
    (c.session.server.negotiated.has capabilityRegisterReject) (.new c.desired) c.counters
  refine
    { staffed := hkept.staffed
      hasId := hkept.hasId _ _ c.given
      queues := hkept.queues c.context
      streamed := hkept.streamed
      represented := ?_
      down := fun o ho => (by cases ho)
      opens := fun task htask => ?_
      dials := fun n d hd => (by cases hd)
      outgoing := fun n hn => (by cases hn)
      streams := fun a n ha => (by cases ha)
      once := ⟨List.nodup_nil, fun a n ha => (by cases ha), fun a b n ha => (by cases ha)⟩
      hellos := fun a n d task ha => (by cases ha)
      deliveries := fun x hx n d ha => (by cases ha) }
  · have hpolicy := Drive.policy_start c.policy c.session.server.sessionId
      (c.session.server.negotiated.has capabilityRegisterReject) (.new c.desired) c.counters []
    dsimp only [Circuit.init]
    rw [hpolicy]
    exact Tunnel.represented_start c.valid _ _ _
  · rw [show (Circuit.init c).client.opens = [] from hopens] at htask
    cases htask

theorem joined_exec {es : List CircuitEvent}
    (hfresh : AllSteps (step c) (fun s e => s.fresh e = true) (init c) es)
    (hrun : exec (step c) (init c) es = some s) : Joined c s :=
  exec_inv (fun _ _ _ hs hf h => hs.step hf h) (.init c) hfresh hrun

/-! ### The circuit -/

/-- The two ends of a relay on a data connection of the client: the target has been
connected for the `Open` of the very connection, and for a Service with the id of the
one whose task has accepted it. -/
structure Ends (c : CircuitConfig) (s : Circuit) (relay : RelayTask) (d : Dial) : Prop where
  connected : d.connected = true
  context : relay.context = c.context
  connection : relay.connection = d.task.frame.connectionId
  service : ∀ task, s.hub.tasks.lookup relay.task = some task →
    task.context = c.context ∧ task.serviceId = d.task.service.id

theorem connected_of_greeted {d : Dial} (hsound : d.Sound) (hgreeted : d.greeted = true) :
    d.connected = true := by
  rcases hsound.written_le with hnone | ⟨hconnected, -⟩
  · rw [Dial.greeted, hnone] at hgreeted
    cases hgreeted
  · exact hconnected

theorem Joined.ends (hs : Joined c s) {x : ExternalId} {relay : RelayTask} {a : StreamId} {n : Nat}
    {d : Dial} (hx : s.hub.relays.lookup x = some relay) (ha : relay.state.data = some a)
    (hn : s.streams.lookup a = some n) (hd : s.dials.lookup n = some d)
    (hgreeted : d.greeted = true) : Ends c s relay d := by
  have hsingle := hs.staffed.use.single
  obtain ⟨hsound, -, hdialled, -⟩ := hs.dials n d hd
  -- the relay has its stream from a delivery, and that is one for the task's own `Open`
  obtain ⟨delivery, hdelivery, rfl, rfl⟩ := hsingle.carries x a (.inr ⟨relay, hx, ha⟩)
  have htask := hs.deliveries delivery hdelivery n d hn hd
  obtain ⟨r, hr⟩ := hsingle.deliveries delivery hdelivery
  rw [htask] at hr
  have hrelay := hsingle.bears ⟨relay.connection, relay.context, relay.task, delivery.external⟩
    (.inr ⟨relay, hx, rfl, rfl, rfl⟩)
  have hsame := List.inj_on_of_nodup_map hsingle.externals hrelay hr rfl
  obtain ⟨hconnection, hcontext, htaskId, -⟩ := Issue.mk.inj hsame
  refine ⟨connected_of_greeted hsound hgreeted, hcontext, hconnection, ?_⟩
  intro task hlookup
  obtain ⟨r', x', hissued, -, hhome⟩ := hdialled.opened
  have hown := hsingle.issue_unique hissued hr rfl
  obtain ⟨-, -, hr', -⟩ := Issue.mk.inj hown
  rw [htaskId, ← hr'] at hlookup
  obtain ⟨hk, hservice⟩ := hhome _ _ (.task task hlookup rfl rfl)
  exact ⟨hk, hservice.trans hdialled.service.symm⟩

/-- A data connection of the client has been sent to one external connection at most. -/
theorem Joined.external_unique (hs : Joined c s) {x y : ExternalId} {a : StreamId} {n : Nat}
    (hn : s.streams.lookup a = some n) (hx : s.hub.Carries x a) (hy : s.hub.Carries y a) :
    x = y := by
  have hsingle := hs.staffed.use.single
  obtain ⟨d, hd, -⟩ := (hs.streams a n hn).2
  obtain ⟨v, hv, rfl, rfl⟩ := hsingle.carries x a hx
  obtain ⟨w, hw, rfl, hstream⟩ := hsingle.carries y _ hy
  have hvtask := hs.deliveries v hv n d hn hd
  have hwtask := hs.deliveries w hw n d (hstream ▸ hn) hd
  have hsame := List.inj_on_of_nodup_map hsingle.once hv hw (by rw [hvtask, hwtask])
  rw [hsame]

/-- **A circuit joins the right ends.**  Whatever the server's other clients do, and
whatever is sent on the control connections: when an external connection is relayed
over a data connection of the client, the client has connected a target for that very
connection, and for a Service with the id of the listener's.  Each of its data
connections serves one external connection, and each `handle_open` has one data
connection. -/
theorem joins_the_right_ends (c : CircuitConfig) (es : List CircuitEvent) (s : Circuit)
    (hfresh : AllSteps (step c) (fun s e => s.fresh e = true) (init c) es)
    (hrun : exec (step c) (init c) es = some s) :
    (∀ x relay a n, s.hub.relays.lookup x = some relay → relay.state.data = some a →
      s.streams.lookup a = some n → ∃ d, s.dials.lookup n = some d ∧ Ends c s relay d) ∧
    (∀ x y a n, s.streams.lookup a = some n → s.hub.Carries x a → s.hub.Carries y a → x = y) ∧
    ∀ a b n, s.streams.lookup a = some n → s.streams.lookup b = some n → a = b := by
  have hs := joined_exec hfresh hrun
  refine ⟨?_, fun x y a n hn hx hy => hs.external_unique hn hx hy, hs.once.2.2⟩
  intro x relay a n hx ha hn
  obtain ⟨d, hd, hgreeted⟩ := (hs.streams a n hn).2
  exact ⟨d, hd, hs.ends hx ha hn hd hgreeted⟩

/-! ### The client's own connections are taken -/

theorem finds_of_runs (hs : Joined c s) (hruns : s.hub.Runs c.context) {hello : DataHello}
    (hid : hello.sessionId = c.session.server.sessionId) :
    s.hub.Finds ⟨c.context, hello, c.session.principal⟩ := by
  obtain ⟨session, hk, hphase⟩ := hruns
  obtain ⟨hsession, hprincipal⟩ := hs.hasId.own session hk
  have hreg := hs.staffed.use.registered.live _ session hk hphase
  rw [hsession, ← hid] at hreg
  refine ⟨hreg, ?_, session, hk, hprincipal⟩
  simp [Hub.held, hk, hphase]

theorem hello_taken (hs : Joined c s) (hruns : s.hub.Runs c.context) {n : Nat} {d : Dial}
    (hd : s.dials.lookup n = some d) (hn : n ∈ s.outgoing)
    (h : step c s (.arrive n) = some t) :
    t.hub.hellos.lookup s.hub.next = some ⟨c.context, d.hello, c.session.principal⟩ := by
  have hid : d.hello.sessionId = c.session.server.sessionId := (hs.dials n d hd).2.1
  have hfinds := finds_of_runs hs hruns hid
  simp only [step, hd, Option.bind_some, if_pos hn] at h
  obtain ⟨hub, hstep, rfl⟩ := Option.map_eq_some_iff.mp h
  obtain rfl := Hub.did_of_step hstep
  rcases s.hub.dataHello_cases d.hello c.session.principal with ⟨k, hthere, heq⟩ | ⟨hnone, -⟩
  · have hcontext : k = c.context := Option.some.inj (hthere.1.symm.trans hfinds.1)
    subst hcontext
    rw [heq]
    exact AList.lookup_insert _
  · exact absurd hfinds (hnone c.context)

/-- **The client's own data connections are honoured.**  They find their Session as
long as it runs.  One that comes to the lock while the entry of its connection is
there fits it, and if the entry has not expired and somebody waits for it, the
connection is sent to them. -/
theorem own_stream_is_honoured (c : CircuitConfig) (es : List CircuitEvent) (s : Circuit)
    (hfresh : AllSteps (step c) (fun s e => s.fresh e = true) (init c) es)
    (hrun : exec (step c) (init c) es = some s) :
    (∀ n d t, s.dials.lookup n = some d → n ∈ s.outgoing → s.hub.Runs c.context →
      step c s (.arrive n) = some t →
      t.hub.hellos.lookup s.hub.next = some ⟨c.context, d.hello, c.session.principal⟩) ∧
    ∀ a n d task entry, s.streams.lookup a = some n → s.dials.lookup n = some d →
      s.hub.hellos.lookup a = some task →
      s.hub.entryOf c.context d.task.frame.connectionId = some entry →
      entry.serviceId = task.hello.serviceId ∧
      ∀ now, now < entry.expires → s.hub.receiving entry.dataTx = true →
        ∃ hub, s.hub.step (.resolve a now) = some hub ∧ hub.inbox.lookup entry.dataTx = some a ∧
          (a, .ok ()) ∈ hub.results := by
  have hs := joined_exec hfresh hrun
  refine ⟨fun n d t hd hn hruns h => hello_taken hs hruns hd hn h, ?_⟩
  intro a n d task entry ha hd htask hentry
  obtain ⟨-, -, hdialled, -⟩ := hs.dials n d hd
  obtain rfl := hs.hellos a n d task ha hd htask
  have hservice : entry.serviceId = d.hello.serviceId :=
    (hdialled.opened.entry hentry).trans hdialled.service.symm
  refine ⟨hservice, fun now hnow hreceiving => ?_⟩
  obtain ⟨session, hk, hpending⟩ := Option.bind_eq_some_iff.mp hentry
  exact Hub.resolve_delivers htask hk hpending hservice hnow hreceiving

/-! ### One circuit -/

/-- A Session is greeted. -/
def greetOne : List HubEvent := [.connect Hub.sampleId none correlatedPeer, .greet 0 .done]

/-- The server then. -/
def greetedHub : Hub :=
  (exec Hub.step (Hub.init Hub.smallHub) greetOne).getD (Hub.init Hub.smallHub)

/-- Its Session. -/
def greetedSession : ServerSession where
  principal := none
  server := (Hub.init Hub.smallHub).newServer Hub.sampleId correlatedPeer
  greeted := true
  pending := ∅
  tokens := ∅
  written := [(.authOk ⟨Hub.sampleId⟩, .done)]
  served := []

theorem greetOne_fresh :
    AllSteps Hub.step (fun s e => s.fresh e = true) (Hub.init Hub.smallHub) greetOne := by
  decide +kernel

theorem exec_greetOne :
    exec Hub.step (Hub.init Hub.smallHub) greetOne = some greetedHub := rfl

theorem greetedSession_given : greetedHub.sessions.lookup 0 = some greetedSession := rfl

theorem web_valid : validateServices .default [webService] = .ok () := by decide +kernel

/-- A client with one Service and the default policy. -/
def smallCircuit : CircuitConfig where
  server := Hub.smallHub
  history := greetOne
  hub := greetedHub
  fresh := greetOne_fresh
  reached := exec_greetOne
  context := 0
  session := greetedSession
  given := greetedSession_given
  greeted := rfl
  policy := .default
  desired := [webService]
  valid := web_valid
  counters := .new
  transport := .quic

/-- The Service is registered, and an external connection is accepted, dialled and
answered. -/
def dialBack : List CircuitEvent :=
  [.client (.registerNext .done),
    .server (.control 0 (.incoming (.registerService webService.registration) (boundAt 1000) .done)),
    .deliver .done 1, .server (.accept 1 (some Hub.sampleConnection)), .server (.insert 1 2),
    .server (.advertise 1), .server (.control 0 (.outbound .done)), .deliver .done 3,
    .dial 0 4 .ready, .dial 0 5 .ready, .dial 0 6 (.wrote .done), .arrive 0]

/-- The circuit after that run. -/
def dialledBack : Circuit := (exec (step smallCircuit) (init smallCircuit) dialBack).getD
  (init smallCircuit)

/-- The same up to the relay. -/
def relayOne : List CircuitEvent :=
  dialBack ++ [.server (.resolve 3 7), .server (.received 2), .server (.release 2)]

/-- The circuit after that run. -/
def relayedOne : Circuit := (exec (step smallCircuit) (init smallCircuit) relayOne).getD
  (init smallCircuit)

theorem exec_dialBack :
    exec (step smallCircuit) (init smallCircuit) dialBack = some dialledBack := by
  obtain ⟨t, ht⟩ : ∃ t, exec (step smallCircuit) (init smallCircuit) dialBack = some t :=
    Option.isSome_iff_exists.mp (by decide +kernel)
  rw [dialledBack, ht, Option.getD_some]

theorem exec_relayOne :
    exec (step smallCircuit) (init smallCircuit) relayOne = some relayedOne := by
  obtain ⟨t, ht⟩ : ∃ t, exec (step smallCircuit) (init smallCircuit) relayOne = some t :=
    Option.isSome_iff_exists.mp (by decide +kernel)
  rw [relayedOne, ht, Option.getD_some]

theorem joins_the_right_ends_once :
    ∃ d, relayedOne.dials.lookup 0 = some d ∧ d.task.service = webService ∧
      Ends smallCircuit relayedOne ⟨0, 1, Hub.sampleConnection, .relaying 3⟩ d := by
  obtain ⟨hends, -⟩ := joins_the_right_ends smallCircuit relayOne relayedOne (by decide +kernel)
    exec_relayOne
  obtain ⟨d, hd, hthis⟩ := hends 2 ⟨0, 1, Hub.sampleConnection, .relaying 3⟩ 3 0
    (by decide +kernel) rfl (by decide +kernel)
  have hservice : (relayedOne.dials.lookup 0).map (·.task.service) = some webService := by
    decide +kernel
  rw [hd] at hservice
  exact ⟨d, hd, Option.some.inj hservice, hthis⟩

theorem own_stream_is_honoured_once :
    ∃ hub, dialledBack.hub.step (.resolve 3 7) = some hub ∧ hub.inbox.lookup 2 = some 3 ∧
      (3, .ok ()) ∈ hub.results := by
  obtain ⟨-, hhonoured⟩ := own_stream_is_honoured smallCircuit dialBack dialledBack
    (by decide +kernel) exec_dialBack
  obtain ⟨d, hd⟩ : ∃ d, dialledBack.dials.lookup 0 = some d :=
    Option.isSome_iff_exists.mp (by decide +kernel)
  have hframe : (dialledBack.dials.lookup 0).map (·.task.frame.connectionId)
      = some Hub.sampleConnection := by decide +kernel
  rw [hd] at hframe
  have hid : d.task.frame.connectionId = Hub.sampleConnection := Option.some.inj hframe
  have hentry : dialledBack.hub.entryOf smallCircuit.context d.task.frame.connectionId
      = some ⟨⟨1⟩, 2 + secs 30, 2⟩ := by
    rw [hid]
    decide +kernel
  refine (hhonoured 3 0 d ⟨0, ⟨Hub.sampleId, ⟨1⟩, Hub.sampleConnection⟩, none⟩ _
    (by decide +kernel) hd (by decide +kernel) hentry).2 7 ?_ ?_
  · decide
  · decide +kernel

end Circuit

end Eggtunnel
