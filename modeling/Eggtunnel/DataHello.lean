/-
Eggtunnel/DataHello.lean

A `ConnectionId` is good for one data stream, and only for the external
connection it was issued for.

An id lives in several places: with the `run_service` task that generated it,
in the pending map of its Session, and with the relay task.  The log `issued`
says to which context, registration and external connection each id belongs;
every place agrees with it (`Single`).  The entry is taken out of the map
before a stream is sent, and a fresh id is never put back, so no second stream
follows.
-/
import Eggtunnel.Accounting

namespace Eggtunnel

/-! ### Who holds an id or a stream -/

/-- The id whose entry is in the map, and the connection it is for. -/
def TaskState.carried : TaskState → Option (ConnectionId × ExternalId)
  | .advertising c x | .rollingBack c x => some (c, x)
  | _ => none

/-- The stream the relay has been given. -/
def RelayState.data : RelayState → Option StreamId
  | .waiting => none
  | .decided outcome => outcome
  | .relaying data => some data

namespace Hub

variable {s t : Hub}

/-- The task has generated the id and waits for the lock. -/
def Admitted (s : Hub) (r : RegistrationId) (c : ConnectionId) : Prop :=
  ∃ task, s.tasks.lookup r = some task ∧ task.state = .admitted c

/-- A `run_service` task or a relay works with the id. -/
def Bears (s : Hub) (i : Issue) : Prop :=
  (∃ task, s.tasks.lookup i.registration = some task ∧ task.context = i.context ∧
    task.state.carried = some (i.connection, i.external)) ∨
  (∃ relay, s.relays.lookup i.external = some relay ∧ relay.context = i.context ∧
    relay.task = i.registration ∧ relay.connection = i.connection)

/-- The stream is on its way to the task of the external connection, or there. -/
def Carries (s : Hub) (x : ExternalId) (d : StreamId) : Prop :=
  s.inbox.lookup x = some d ∨ ∃ relay, s.relays.lookup x = some relay ∧ relay.state.data = some d

/-! ### Quiet steps

Most steps generate no id, enter none and send no stream: they only move what
is there from one task to another. -/

/-- The tasks hold nothing that was not held before. -/
def TasksFrom (s : Hub) (tasks : Table RegistrationId ServiceTask) : Prop :=
  ∀ r task, tasks.lookup r = some task →
    (∀ c, task.state = .admitted c → s.Admitted r c) ∧
    ∀ c x, task.state.carried = some (c, x) → s.Bears ⟨c, task.context, r, x⟩

/-- The same of the relays. -/
def RelaysFrom (s : Hub) (relays : Table ExternalId RelayTask) : Prop :=
  ∀ x relay, relays.lookup x = some relay →
    s.Bears ⟨relay.connection, relay.context, relay.task, x⟩ ∧
    ∀ d, relay.state.data = some d → s.Carries x d

/-- The same of the streams on their way. -/
def InboxFrom (s : Hub) (inbox : Table ExternalId StreamId) : Prop :=
  ∀ x d, inbox.lookup x = some d → s.Carries x d

theorem tasksFrom_self (s : Hub) : s.TasksFrom s.tasks := fun _ task h =>
  ⟨fun _ hstate => ⟨task, h, hstate⟩, fun _ _ hcarried => .inl ⟨task, h, rfl, hcarried⟩⟩

theorem TasksFrom.insert {tasks : Table RegistrationId ServiceTask} (h : s.TasksFrom tasks)
    {r : RegistrationId} {task : ServiceTask} (hadmitted : ∀ c, task.state ≠ .admitted c)
    (hcarried : ∀ c x, task.state.carried = some (c, x) → s.Bears ⟨c, task.context, r, x⟩) :
    s.TasksFrom (tasks.insert r task) := by
  intro r' task' hr'
  rw [Table.lookup_insert_eq] at hr'
  split_ifs at hr' with hrr
  · obtain rfl := Option.some.inj hr'
    rw [hrr]
    exact ⟨fun c hstate => absurd hstate (hadmitted c), hcarried⟩
  · exact h r' task' hr'

/-- A task that is back in its loop, or on its way out, holds nothing. -/
theorem TasksFrom.insert_idle {tasks : Table RegistrationId ServiceTask} (h : s.TasksFrom tasks)
    {r : RegistrationId} {task : ServiceTask} (hidle : task.state = .accepting ∨ task.state = .leaving) :
    s.TasksFrom (tasks.insert r task) := by
  refine h.insert (fun c hstate => ?_) (fun c x hcarried => ?_)
  · rcases hidle with hidle | hidle <;> rw [hidle] at hstate <;> cases hstate
  · rcases hidle with hidle | hidle <;> rw [hidle] at hcarried <;> cases hcarried

theorem TasksFrom.erase {tasks : Table RegistrationId ServiceTask} (h : s.TasksFrom tasks)
    (r : RegistrationId) : s.TasksFrom (tasks.erase r) := by
  intro r' task' hr'
  rw [Table.lookup_erase_eq] at hr'
  split_ifs at hr'
  exact h r' task' hr'

theorem relaysFrom_self (s : Hub) : s.RelaysFrom s.relays := fun _ relay h =>
  ⟨.inr ⟨relay, h, rfl, rfl, rfl⟩, fun _ hdata => .inr ⟨relay, h, hdata⟩⟩

theorem RelaysFrom.insert {relays : Table ExternalId RelayTask} (h : s.RelaysFrom relays)
    {x : ExternalId} {relay : RelayTask}
    (hbears : s.Bears ⟨relay.connection, relay.context, relay.task, x⟩)
    (hdata : ∀ d, relay.state.data = some d → s.Carries x d) :
    s.RelaysFrom (relays.insert x relay) := by
  intro x' relay' hx'
  rw [Table.lookup_insert_eq] at hx'
  split_ifs at hx' with hxx
  · obtain rfl := Option.some.inj hx'
    rw [hxx]
    exact ⟨hbears, hdata⟩
  · exact h x' relay' hx'

theorem RelaysFrom.erase {relays : Table ExternalId RelayTask} (h : s.RelaysFrom relays)
    (x : ExternalId) : s.RelaysFrom (relays.erase x) := by
  intro x' relay' hx'
  rw [Table.lookup_erase_eq] at hx'
  split_ifs at hx'
  exact h x' relay' hx'

theorem inboxFrom_self (s : Hub) : s.InboxFrom s.inbox := fun _ _ h => .inl h

theorem InboxFrom.erase {inbox : Table ExternalId StreamId} (h : s.InboxFrom inbox)
    (x : ExternalId) : s.InboxFrom (inbox.erase x) := by
  intro x' d hx'
  rw [Table.lookup_erase_eq] at hx'
  split_ifs at hx'
  exact h x' d hx'

/-- The step only moves what is there. -/
structure Quiet (s t : Hub) : Prop where
  generated : t.generated = s.generated
  issued : t.issued = s.issued
  deliveries : t.deliveries = s.deliveries
  tasks : s.TasksFrom t.tasks
  relays : s.RelaysFrom t.relays
  inbox : s.InboxFrom t.inbox

/-- A step that touches neither ids nor streams. -/
theorem Quiet.of_eq (hgenerated : t.generated = s.generated) (hissued : t.issued = s.issued)
    (hdeliveries : t.deliveries = s.deliveries) (htasks : t.tasks = s.tasks)
    (hrelays : t.relays = s.relays) (hinbox : t.inbox = s.inbox) : Quiet s t :=
  ⟨hgenerated, hissued, hdeliveries, htasks ▸ s.tasksFrom_self, hrelays ▸ s.relaysFrom_self,
    hinbox ▸ s.inboxFrom_self⟩

/-- What a step does with ids and streams. -/
inductive IdStep (s : Hub) : HubEvent → Hub → Prop
  | quiet {e : HubEvent} {t : Hub} (h : Quiet s t) : IdStep s e t
  /-- an id is generated -/
  | generate (r : RegistrationId) (task : ServiceTask) (c : ConnectionId)
      (htask : s.tasks.lookup r = some task) :
      IdStep s (.accept r (some c))
        ({ s with generated := c :: s.generated }.setTask r task (.admitted c))
  /-- an id is entered -/
  | issue (r : RegistrationId) (task : ServiceTask) (session : ServerSession) (c : ConnectionId)
      (now : Instant) {t : Hub} (hat : s.TaskAt r task session) (hstate : task.state = .admitted c)
      (ht : s.insert r task c session now = some t)
      (hroom : session.pending.size < s.policy.limits.pendingPerSession) :
      IdStep s (.insert r now) t
  /-- a stream is sent -/
  | deliver (d : StreamId) (now : Instant) (task : HelloTask) (session : ServerSession)
      (entry : PendingEntry) (hd : s.hellos.lookup d = some task)
      (hk : s.sessions.lookup task.context = some session)
      (hentry : session.pending.lookup task.hello.connectionId = some entry)
      (hservice : entry.serviceId = task.hello.serviceId) (hnow : now < entry.expires)
      {t : Hub} (htasks : t.tasks = s.tasks) (hrelays : t.relays = s.relays)
      (hinbox : t.inbox = s.inbox.insert entry.dataTx d) (hgenerated : t.generated = s.generated)
      (hissued : t.issued = s.issued)
      (hdeliveries : t.deliveries = ⟨task, entry.dataTx, d⟩ :: s.deliveries)
      (hsessions : t.sessions = s.sessions.insert task.context
        { session with pending := session.pending.erase task.hello.connectionId }) :
      IdStep s (.resolve d now) t

/-- The last part of a branch does not touch the tasks. -/
theorem quiet_conclude {u : Hub} {k : ContextId} {session : ServerSession} {b : Bool}
    (hgenerated : u.generated = s.generated) (hissued : u.issued = s.issued)
    (hdeliveries : u.deliveries = s.deliveries) (htasks : s.TasksFrom u.tasks)
    (hrelays : u.relays = s.relays) (hinbox : u.inbox = s.inbox) :
    Quiet s (u.conclude k session b) := by
  obtain ⟨r, -, heq⟩ := u.conclude_frame k session b
  rw [heq]
  exact ⟨hgenerated, hissued, hdeliveries, htasks, hrelays ▸ s.relaysFrom_self,
    hinbox ▸ s.inboxFrom_self⟩

theorem quiet_controlled (s : Hub) (k : ContextId) (session : ServerSession) (e : ServerEvent)
    (server : Server) (writes : List Write) :
    Quiet s ({ (s.branch k session e).1 with counters := server.counters }.conclude k
      { (s.branch k session e).2 with
        server, written := (s.branch k session e).2.written ++ writes } (breaks e server)) := by
  have hframe := (s.branch_frame k session e).1
  refine quiet_conclude ?_ ?_ ?_ ?_ ?_ ?_
  · rw [hframe]
  · rw [hframe]
  · rw [hframe]
  · rcases s.branch_tasks k session e with ⟨htasks, -⟩ | ⟨register, os, o, -, htasks, -⟩
    · dsimp only
      rw [htasks]
      exact s.tasksFrom_self
    · dsimp only
      rw [htasks]
      exact s.tasksFrom_self.insert_idle (.inl rfl)
  · rw [hframe]
  · rw [hframe]

/-- A task whose queue takes no more keeps the id for its roll-back. -/
theorem tasksFrom_rollingBack {r : RegistrationId} {task : ServiceTask} {session : ServerSession}
    {c : ConnectionId} {x : ExternalId} (hat : s.TaskAt r task session)
    (hstate : task.state = .advertising c x) :
    s.TasksFrom (s.tasks.insert r { task with state := .rollingBack c x }) := by
  refine s.tasksFrom_self.insert (fun c' hc' => ?_) (fun c' x' hc' => ?_)
  · cases hc'
  · cases hc'
    exact .inl ⟨task, hat.1, rfl, by rw [hstate]; rfl⟩

/-- The id goes from the task to its relay. -/
theorem relaysFrom_advertised {r : RegistrationId} {task : ServiceTask} {session : ServerSession}
    {c : ConnectionId} {x : ExternalId} (hat : s.TaskAt r task session)
    (hstate : task.state = .advertising c x) :
    s.RelaysFrom (s.relays.insert x ⟨task.context, r, c, .waiting⟩) :=
  s.relaysFrom_self.insert (.inl ⟨task, hat.1, rfl, by rw [hstate]; rfl⟩)
    fun d hdata => by cases hdata

/-- A relay moves on with the stream it has been sent. -/
theorem relaysFrom_set {x : ExternalId} {relay : RelayTask} {session : ServerSession}
    {state : RelayState} (hat : s.RelayAt x relay session)
    (hdata : ∀ d, state.data = some d → s.Carries x d) :
    s.RelaysFrom (s.relays.insert x { relay with state }) :=
  s.relaysFrom_self.insert (.inr ⟨relay, hat.1, rfl, rfl, rfl⟩) hdata

/-- **What a step does with ids and streams.** -/
theorem idStep_of_step {e : HubEvent} (h : s.step e = some t) : IdStep s e t := by
  cases took_of_step h with
  | unreached => exact .quiet (quiet_conclude rfl rfl rfl s.tasksFrom_self rfl rfl)
  | controlled => exact .quiet (quiet_controlled s _ _ _ _ _)
  | admitted hat => exact .generate _ _ _ hat.1
  -- the only step that issues an id
  | inserted hat hstate hroom hword =>
      refine .issue _ _ _ _ _ hat hstate ?_ hroom
      rw [Hub.insert, if_neg (Nat.not_le.mpr hroom), if_pos hword]
  | full =>
      exact .quiet ⟨rfl, rfl, rfl, s.tasksFrom_self.insert_idle (.inl rfl), s.relaysFrom_self,
        s.inboxFrom_self⟩
  | advertised hat hstate =>
      exact .quiet ⟨rfl, rfl, rfl, s.tasksFrom_self.insert_idle (.inl rfl),
        relaysFrom_advertised hat hstate, s.inboxFrom_self⟩
  | unadvertised hat hstate =>
      exact .quiet ⟨rfl, rfl, rfl, tasksFrom_rollingBack hat hstate, s.relaysFrom_self,
        s.inboxFrom_self⟩
  | rolledBack =>
      exact .quiet ⟨rfl, rfl, rfl, s.tasksFrom_self.insert_idle (.inl rfl), s.relaysFrom_self,
        s.inboxFrom_self.erase _⟩
  | left =>
      exact .quiet ⟨rfl, rfl, rfl, s.tasksFrom_self.insert_idle (.inr rfl), s.relaysFrom_self,
        s.inboxFrom_self⟩
  | exited | aborted =>
      exact .quiet ⟨rfl, rfl, rfl, s.tasksFrom_self.erase _, s.relaysFrom_self, s.inboxFrom_self⟩
  | abortedRollingBack =>
      exact .quiet ⟨rfl, rfl, rfl, s.tasksFrom_self.erase _, s.relaysFrom_self,
        s.inboxFrom_self.erase _⟩
  | received hat hstate hdata =>
      -- the stream moves from the inbox into the relay
      refine .quiet ⟨rfl, rfl, rfl, s.tasksFrom_self, relaysFrom_set hat fun d hd => ?_,
        s.inboxFrom_self.erase _⟩
      cases hd
      exact .inl hdata
  | gaveUp hat =>
      exact .quiet ⟨rfl, rfl, rfl, s.tasksFrom_self, relaysFrom_set hat (fun d hd => by cases hd),
        s.inboxFrom_self.erase _⟩
  | relaying hat hstate =>
      refine .quiet ⟨rfl, rfl, rfl, s.tasksFrom_self, relaysFrom_set hat fun d hd => ?_,
        s.inboxFrom_self.erase _⟩
      exact .inr ⟨_, hat.1, by rw [hstate]; exact hd⟩
  | ended | relayDropped =>
      exact .quiet ⟨rfl, rfl, rfl, s.tasksFrom_self, s.relaysFrom_self.erase _,
        s.inboxFrom_self.erase _⟩
  | delivered hd hk hentry hservice hnow =>
      refine .deliver _ _ _ _ _ hd hk hentry hservice hnow rfl rfl rfl rfl rfl rfl ?_
      dsimp only [answerHello, claimed, setPending, claimPending]
      rw [hentry]
  -- neither ids nor streams are touched
  | turnedAway | connected | greeted | contextDropped | saturated | unidentified | found | notFound
  | unknown | mismatched | late | helloDropped => exact .quiet (.of_eq rfl rfl rfl rfl rfl rfl)

/-- A quiet step gives nobody an id. -/
theorem Quiet.bears (h : Quiet s t) {i : Issue} (hi : t.Bears i) : s.Bears i := by
  obtain ⟨connection, context, registration, external⟩ := i
  rcases hi with ⟨task, htask, hcontext, hcarried⟩ | ⟨relay, hrelay, hcontext, htask, hconnection⟩
  · dsimp only at hcontext
    exact hcontext ▸ (h.tasks _ task htask).2 _ _ hcarried
  · dsimp only at hcontext htask hconnection
    exact hcontext ▸ htask ▸ hconnection ▸ (h.relays _ relay hrelay).1

/-- A task that moves to a state without an entry bears none. -/
theorem bears_of_set {r : RegistrationId} {task : ServiceTask} {i : Issue} (hi : t.Bears i)
    (htasks : t.tasks = s.tasks.insert r task) (hrelays : t.relays = s.relays)
    (htask : task.state.carried = none) : s.Bears i := by
  unfold Bears at hi
  rw [htasks, hrelays] at hi
  refine hi.imp_left ?_
  rintro ⟨task', htask', hrest⟩
  rw [Table.lookup_insert_eq] at htask'
  split_ifs at htask'
  · obtain rfl := Option.some.inj htask'
    cases htask.symm.trans hrest.2
  · exact ⟨task', htask', hrest⟩

/-- The insertion gives the task the id it enters. -/
theorem bears_of_insert {r : RegistrationId} {task : ServiceTask} {session : ServerSession}
    {c : ConnectionId} {now : Instant} (ht : s.insert r task c session now = some t)
    (hroom : session.pending.size < s.policy.limits.pendingPerSession) :
    t.issued = ⟨c, task.context, r, s.next⟩ :: s.issued ∧
    ∀ i, t.Bears i → s.Bears i ∨ i = ⟨c, task.context, r, s.next⟩ := by
  unfold Hub.insert at ht
  rw [if_neg (Nat.not_le.mpr hroom)] at ht
  split_ifs at ht
  obtain rfl := Option.some.inj ht
  refine ⟨rfl, ?_⟩
  rintro ⟨connection, context, registration, external⟩ (⟨task', htask', hcontext, hcarried⟩ | hrelay)
  · have htask' : (s.tasks.insert r { task with state := .advertising c s.next }).lookup
        registration = some task' := htask'
    rw [Table.lookup_insert_eq] at htask'
    split_ifs at htask' with hrr
    · obtain rfl := Option.some.inj htask'
      cases hcarried
      cases hcontext
      exact .inr (congrArg (Issue.mk _ _ · _) hrr)
    · exact .inl (.inl ⟨task', htask', hcontext, hcarried⟩)
  · exact .inl (.inr hrelay)

/-- **Who works with an id has entered it.** -/
theorem bears_step {e : HubEvent} (hs : ∀ i, s.Bears i → i ∈ s.issued) (h : s.step e = some t) :
    ∀ i, t.Bears i → i ∈ t.issued := by
  intro i hi
  cases idStep_of_step h with
  | quiet hquiet =>
      rw [hquiet.issued]
      exact hs i (hquiet.bears hi)
  | generate r task c htask => exact hs i (bears_of_set hi rfl rfl rfl)
  | issue r task session c now hat hstate ht hroom =>
      obtain ⟨hissued, hbears⟩ := bears_of_insert ht hroom
      rw [hissued]
      rcases hbears i hi with hold | rfl
      · exact List.mem_cons_of_mem _ (hs i hold)
      · exact List.mem_cons_self
  | deliver d now task session entry hd hk hentry hservice hnow htasks hrelays hinbox hgenerated
      hissued hdeliveries hsessions =>
      rw [hissued]
      unfold Bears at hi
      rw [htasks, hrelays] at hi
      exact hs i hi

/-! ### The invariant -/

/-- Every place an id is in agrees with the log, and no id has had more than
one stream. -/
structure Single (s : Hub) : Prop where
  connections : (s.issued.map (·.connection)).Nodup
  externals : (s.issued.map (·.external)).Nodup
  numbered : ∀ i ∈ s.issued, i.external < s.next
  generated : ∀ i ∈ s.issued, i.connection ∈ s.generated
  admitted : ∀ r c, s.Admitted r c → c ∈ s.generated ∧ ∀ i ∈ s.issued, i.connection ≠ c
  admittedOnce : ∀ r r' c, s.Admitted r c → s.Admitted r' c → r = r'
  bears : ∀ i, s.Bears i → i ∈ s.issued
  pending : ∀ k c entry, s.ledger.Holds k c entry →
    (∃ r, ⟨c, k, r, entry.dataTx⟩ ∈ s.issued) ∧
    ∀ d ∈ s.deliveries, d.task.hello.connectionId ≠ c
  deliveries : ∀ d ∈ s.deliveries,
    ∃ r, ⟨d.task.hello.connectionId, d.task.context, r, d.external⟩ ∈ s.issued
  once : (s.deliveries.map (·.task.hello.connectionId)).Nodup
  carries : ∀ x d, s.Carries x d → ∃ delivery ∈ s.deliveries,
    delivery.external = x ∧ delivery.stream = d

theorem holds_iff {k : ContextId} {c : ConnectionId} {entry : PendingEntry} :
    s.ledger.Holds k c entry ↔
      ∃ session, s.sessions.lookup k = some session ∧ session.pending.lookup c = some entry := by
  constructor
  · rintro ⟨b, hb, hc⟩
    have hb : (s.sessions.mapValues (·.pending)).lookup k = some b := hb
    rw [Table.lookup_mapValues, Option.map_eq_some_iff] at hb
    obtain ⟨session, hk, rfl⟩ := hb
    exact ⟨session, hk, hc⟩
  · rintro ⟨session, hk, hc⟩
    exact ⟨session.pending, books_eq_some hk, hc⟩

/-- A fresh id is not pending. -/
theorem Single.distinct (hs : Single s) (e : HubEvent) : s.distinct e = true := by
  cases e with
  | insert r now =>
      unfold Hub.distinct
      dsimp only
      split
      · rename_i task htask
        split
        · rename_i c session hstate hk
          rw [Option.isNone_iff_eq_none, Option.eq_none_iff_forall_ne_some]
          intro entry hentry
          obtain ⟨⟨r', hissued⟩, -⟩ := hs.pending _ _ _ (holds_iff.mpr ⟨session, hk, hentry⟩)
          exact (hs.admitted r c ⟨task, htask, hstate⟩).2 _ hissued rfl
        · rfl
      · rfl
  | _ => rfl

theorem Single.quiet (hs : Single s) (hquiet : Quiet s t) (hnext : s.next ≤ t.next)
    (hpending : ∀ k c entry, t.ledger.Holds k c entry → s.ledger.Holds k c entry) : Single t where
  connections := hquiet.issued ▸ hs.connections
  externals := hquiet.issued ▸ hs.externals
  numbered i hi := (hs.numbered i (hquiet.issued ▸ hi)).trans_le hnext
  generated i hi := hquiet.generated ▸ hs.generated i (hquiet.issued ▸ hi)
  admitted r c hadmitted := by
    obtain ⟨task, htask, hstate⟩ := hadmitted
    rw [hquiet.generated, hquiet.issued]
    exact hs.admitted r c ((hquiet.tasks r task htask).1 c hstate)
  admittedOnce r r' c hr hr' := by
    obtain ⟨task, htask, hstate⟩ := hr
    obtain ⟨task', htask', hstate'⟩ := hr'
    exact hs.admittedOnce r r' c ((hquiet.tasks r task htask).1 c hstate)
      ((hquiet.tasks r' task' htask').1 c hstate')
  bears i hi := by
    rw [hquiet.issued]
    exact hs.bears i (hquiet.bears hi)
  pending k c entry h := by
    rw [hquiet.issued, hquiet.deliveries]
    exact hs.pending k c entry (hpending k c entry h)
  deliveries := by
    rw [hquiet.issued, hquiet.deliveries]
    exact hs.deliveries
  once := hquiet.deliveries ▸ hs.once
  carries x d h := by
    rw [hquiet.deliveries]
    rcases h with hinbox | ⟨relay, hrelay, hdata⟩
    · exact hs.carries x d (hquiet.inbox x d hinbox)
    · exact hs.carries x d ((hquiet.relays x relay hrelay).2 d hdata)

/-- An id that was never generated before. -/
theorem Single.generate (hs : Single s) {r : RegistrationId} {task : ServiceTask}
    {c : ConnectionId} (hfresh : c ∉ s.generated) :
    Single ({ s with generated := c :: s.generated }.setTask r task (.admitted c)) := by
  have hadmitted {r' : RegistrationId} {c' : ConnectionId}
      (h : Admitted ({ s with generated := c :: s.generated }.setTask r task (.admitted c)) r' c') :
      (r' = r ∧ c' = c) ∨ s.Admitted r' c' := by
    obtain ⟨task', htask', hstate⟩ := h
    dsimp only [setTask] at htask'
    rw [Table.lookup_insert_eq] at htask'
    split_ifs at htask' with hrr
    · obtain rfl := Option.some.inj htask'
      cases hstate
      exact .inl ⟨hrr, rfl⟩
    · exact .inr ⟨task', htask', hstate⟩
  refine { hs with
    generated := fun i hi => List.mem_cons_of_mem _ (hs.generated i hi)
    admitted := fun r' c' h => ?_
    admittedOnce := fun r' r'' c' h' h'' => ?_
    bears := fun i hi => ?_ }
  · rcases hadmitted h with ⟨-, rfl⟩ | h
    · exact ⟨List.mem_cons_self, fun i hi heq => hfresh (heq ▸ hs.generated i hi)⟩
    · exact ⟨List.mem_cons_of_mem _ (hs.admitted r' c' h).1, (hs.admitted r' c' h).2⟩
  · rcases hadmitted h' with ⟨rfl, rfl⟩ | h' <;> rcases hadmitted h'' with ⟨hr, hc⟩ | h''
    · exact hr.symm
    · exact absurd (hs.admitted _ _ h'').1 hfresh
    · exact absurd (hs.admitted _ _ h').1 (hc ▸ hfresh)
    · exact hs.admittedOnce _ _ _ h' h''
  · exact hs.bears i (bears_of_set hi rfl rfl rfl)

/-- An id goes into the map, and into the log. -/
theorem Single.issue (hs : Single s) {r : RegistrationId} {task : ServiceTask}
    {session : ServerSession} {c : ConnectionId} {now : Instant} (hat : s.TaskAt r task session)
    (hstate : task.state = .admitted c) (ht : s.insert r task c session now = some t)
    (hroom : session.pending.size < s.policy.limits.pendingPerSession) : Single t := by
  obtain ⟨hgenerated, hunissued⟩ := hs.admitted r c ⟨task, hat.1, hstate⟩
  have hbears := (bears_of_insert ht hroom).2
  unfold Hub.insert at ht
  rw [if_neg (Nat.not_le.mpr hroom)] at ht
  split_ifs at ht
  obtain rfl := Option.some.inj ht
  have hadmitted {r' : RegistrationId} {task' : ServiceTask} {c' : ConnectionId}
      (htask' : (s.tasks.insert r { task with state := .advertising c s.next }).lookup r'
        = some task') (hstate' : task'.state = .admitted c') : s.Admitted r' c' ∧ r' ≠ r := by
    rw [Table.lookup_insert_eq] at htask'
    split_ifs at htask' with hrr
    · obtain rfl := Option.some.inj htask'
      cases hstate'
    · exact ⟨⟨task', htask', hstate'⟩, hrr⟩
  refine
    { connections := ?_, externals := ?_, numbered := ?_, generated := ?_
      admitted := ?_, admittedOnce := ?_, bears := ?_, pending := ?_
      deliveries := fun d hd => ?_, once := hs.once, carries := hs.carries }
  · refine List.nodup_cons.mpr ⟨fun hmem => ?_, hs.connections⟩
    obtain ⟨i, hi, heq⟩ := List.mem_map.mp hmem
    exact hunissued i hi heq
  · refine List.nodup_cons.mpr ⟨fun hmem => ?_, hs.externals⟩
    obtain ⟨i, hi, heq⟩ := List.mem_map.mp hmem
    exact (hs.numbered i hi).ne heq
  · intro i hi
    rcases List.mem_cons.mp hi with rfl | hi
    · exact Nat.lt_succ_self _
    · exact (hs.numbered i hi).trans (Nat.lt_succ_self _)
  · intro i hi
    rcases List.mem_cons.mp hi with rfl | hi
    · exact hgenerated
    · exact hs.generated i hi
  · rintro r' c' ⟨task', htask', hstate'⟩
    obtain ⟨hadm, hne⟩ := hadmitted htask' hstate'
    obtain ⟨hgen, hun⟩ := hs.admitted r' c' hadm
    refine ⟨hgen, fun i hi heq => ?_⟩
    rcases List.mem_cons.mp hi with rfl | hi
    · -- two tasks never wait with the same id
      have heq : c = c' := heq
      subst heq
      exact hne (hs.admittedOnce r' r c hadm ⟨task, hat.1, hstate⟩)
    · exact hun i hi heq
  · rintro r' r'' c' ⟨task', htask', hstate'⟩ ⟨task'', htask'', hstate''⟩
    exact hs.admittedOnce r' r'' c' (hadmitted htask' hstate').1 (hadmitted htask'' hstate'').1
  · intro i hi
    rcases hbears i hi with hold | rfl
    · exact List.mem_cons_of_mem _ (hs.bears i hold)
    · exact List.mem_cons_self
  · intro k' c' entry' hholds
    rw [show Hub.ledger _ = ⟨s.ledger.books.insert task.context (session.pending.insert c _), _⟩ from
      congrArg (Ledger.mk · _) (Table.mapValues_insert _ _ _ _)] at hholds
    rcases Ledger.holds_insert (books_eq_some hat.2) hholds with hold | ⟨rfl, rfl, rfl⟩
    · obtain ⟨⟨r', hr'⟩, hdel⟩ := hs.pending k' c' entry' hold
      exact ⟨⟨r', List.mem_cons_of_mem _ hr'⟩, hdel⟩
    · refine ⟨⟨r, List.mem_cons_self⟩, fun d hd heq => ?_⟩
      obtain ⟨r', hr'⟩ := hs.deliveries d hd
      exact hunissued _ hr' heq
  · obtain ⟨r', hr'⟩ := hs.deliveries d hd
    exact ⟨r', List.mem_cons_of_mem _ hr'⟩

theorem Single.issue_unique (hs : Single s) {i j : Issue} (hi : i ∈ s.issued) (hj : j ∈ s.issued)
    (heq : i.connection = j.connection) : i = j :=
  List.inj_on_of_nodup_map hs.connections hi hj heq

/-- A stream is sent, after its entry was taken out. -/
theorem Single.deliver (hs : Single s) {d : StreamId} {task : HelloTask} {session : ServerSession}
    {entry : PendingEntry} (hk : s.sessions.lookup task.context = some session)
    (hentry : session.pending.lookup task.hello.connectionId = some entry)
    (htasks : t.tasks = s.tasks) (hrelays : t.relays = s.relays)
    (hinbox : t.inbox = s.inbox.insert entry.dataTx d) (hgenerated : t.generated = s.generated)
    (hissued : t.issued = s.issued)
    (hdeliveries : t.deliveries = ⟨task, entry.dataTx, d⟩ :: s.deliveries)
    (hsessions : t.sessions = s.sessions.insert task.context
      { session with pending := session.pending.erase task.hello.connectionId })
    (hnext : s.next ≤ t.next) : Single t := by
  obtain ⟨⟨r, hr⟩, hundelivered⟩ := hs.pending _ _ _ (holds_iff.mpr ⟨session, hk, hentry⟩)
  -- the id is pending nowhere any more
  have hpending {k : ContextId} {c : ConnectionId} {entry' : PendingEntry}
      (h : t.ledger.Holds k c entry') :
      s.ledger.Holds k c entry' ∧ c ≠ task.hello.connectionId := by
    obtain ⟨session', hk', hc⟩ := holds_iff.mp h
    rw [hsessions, Table.lookup_insert_eq] at hk'
    split_ifs at hk' with hkk
    · obtain rfl := Option.some.inj hk'
      dsimp only at hc
      rw [Table.lookup_erase_eq] at hc
      split_ifs at hc with hcc
      exact ⟨holds_iff.mpr ⟨session, hkk ▸ hk, hc⟩, hcc⟩
    · have hholds := holds_iff.mpr ⟨session', hk', hc⟩
      refine ⟨hholds, fun hcc => hkk ?_⟩
      obtain ⟨⟨r', hr'⟩, -⟩ := hs.pending _ _ _ hholds
      exact congrArg Issue.context (hs.issue_unique hr' hr hcc)
  have hadmitted {r : RegistrationId} {c : ConnectionId} (h : t.Admitted r c) : s.Admitted r c := by
    obtain ⟨task', htask', hstate⟩ := h
    exact ⟨task', htasks ▸ htask', hstate⟩
  refine
    { connections := hissued ▸ hs.connections
      externals := hissued ▸ hs.externals
      numbered := fun i hi => (hs.numbered i (hissued ▸ hi)).trans_le hnext
      generated := fun i hi => hgenerated ▸ hs.generated i (hissued ▸ hi)
      admitted := fun r c h => ?_
      admittedOnce := fun r r' c h h' => hs.admittedOnce r r' c (hadmitted h) (hadmitted h')
      bears := fun i hi => ?_
      pending := fun k c entry' h => ?_
      deliveries := fun delivery hd => ?_
      once := ?_
      carries := fun x d' h => ?_ }
  · rw [hgenerated, hissued]
    exact hs.admitted r c (hadmitted h)
  · rw [hissued]
    unfold Bears at hi
    rw [htasks, hrelays] at hi
    exact hs.bears i hi
  · obtain ⟨hholds, hne⟩ := hpending h
    obtain ⟨hexists, hdel⟩ := hs.pending k c entry' hholds
    rw [hissued, hdeliveries]
    refine ⟨hexists, fun delivery hd heq => ?_⟩
    rcases List.mem_cons.mp hd with rfl | hd
    · exact hne heq.symm
    · exact hdel delivery hd heq
  · rw [hdeliveries] at hd
    rw [hissued]
    rcases List.mem_cons.mp hd with rfl | hd
    · exact ⟨r, hr⟩
    · exact hs.deliveries delivery hd
  · rw [hdeliveries]
    refine List.nodup_cons.mpr ⟨fun hmem => ?_, hs.once⟩
    obtain ⟨delivery, hd, heq⟩ := List.mem_map.mp hmem
    exact hundelivered delivery hd heq
  · rw [hdeliveries]
    have hold (h : s.Carries x d') : ∃ delivery ∈ (⟨task, entry.dataTx, d⟩ : Delivery) :: s.deliveries,
        delivery.external = x ∧ delivery.stream = d' := by
      obtain ⟨delivery, hd, hrest⟩ := hs.carries x d' h
      exact ⟨delivery, List.mem_cons_of_mem _ hd, hrest⟩
    rcases h with hx | hrelay
    · rw [hinbox, Table.lookup_insert_eq] at hx
      split_ifs at hx with hxx
      · exact ⟨_, List.mem_cons_self, hxx.symm, Option.some.inj hx⟩
      · exact hold (.inl hx)
    · rw [hrelays] at hrelay
      exact hold (.inr hrelay)

/-- What holds throughout a run with fresh ids. -/
structure SingleUse (c : HubConfig) (s : Hub) : Prop where
  reconciled : Reconciled c s
  registered : Registered s
  single : Single s

variable {c : HubConfig}

/-- Without a new id there is no new entry. -/
theorem Reconciled.holds_of_issued_eq {e : HubEvent} (hs : Reconciled c s)
    (hdistinct : s.distinct e = true) (h : s.step e = some t) (hissued : t.issued = s.issued)
    {k : ContextId} {id : ConnectionId} {entry : PendingEntry}
    (hholds : t.ledger.Holds k id entry) : s.ledger.Holds k id entry := by
  rcases ledger_step hs.numbered hs.word hdistinct h with ⟨_, _, -, hgrown, -⟩ | hshrinks
  · rw [hissued] at hgrown
    omega
  · exact Ledger.holds_of_shrinks hshrinks hholds

theorem SingleUse.step {e : HubEvent} (hs : SingleUse c s) (hfresh : s.fresh e = true)
    (h : s.step e = some t) : SingleUse c t := by
  have hdistinct := hs.single.distinct e
  have hnext := (steady_step h).next
  refine ⟨(hs.reconciled.step hdistinct h).1,
    hs.registered.step hs.reconciled.numbered (hs.registered.unused hfresh) h, ?_⟩
  cases idStep_of_step h with
  | quiet hquiet =>
      exact hs.single.quiet hquiet hnext fun k cid entry =>
        hs.reconciled.holds_of_issued_eq hdistinct h hquiet.issued
  | generate r task cid htask => exact hs.single.generate (by simpa [fresh] using hfresh)
  | issue r task session cid now hat hstate ht hroom => exact hs.single.issue hat hstate ht hroom
  | deliver d now task session entry hd hk hentry hservice hnow htasks hrelays hinbox hgenerated
      hissued hdeliveries hsessions =>
      exact hs.single.deliver hk hentry htasks hrelays hinbox hgenerated hissued hdeliveries
        hsessions hnext

theorem SingleUse.init (c : HubConfig) : SingleUse c (init c) := by
  refine ⟨Reconciled.init c, Registered.init c, ?_⟩
  constructor <;> simp [Hub.init, Admitted, Bears, Carries, holds_iff]

theorem singleUse_exec {es : List HubEvent}
    (hfresh : AllSteps Hub.step (fun s e => s.fresh e = true) (Hub.init c) es)
    (hrun : exec Hub.step (Hub.init c) es = some s) : SingleUse c s :=
  exec_inv (fun _ _ _ hs hf h => hs.step hf h) (SingleUse.init c) hfresh hrun

/-! ### The Session a `DataHello` finds -/

/-- A data connection has found its Session before this step, or does in it. -/
theorem hellos_step {e : HubEvent} (h : s.step e = some t) {d : StreamId} {task : HelloTask}
    (hd : t.hellos.lookup d = some task) :
    s.hellos.lookup d = some task ∨
      (e = .dataHello task.hello task.principal ∧ d = s.next ∧ s.Finds task) := by
  have herase {a : StreamId} (h : (s.hellos.erase a).lookup d = some task) :
      s.hellos.lookup d = some task := by
    rw [Table.lookup_erase_eq] at h
    split_ifs at h
    exact h
  cases took_of_step h with
  | found hfinds =>
      dsimp only at hd
      rw [Table.lookup_insert_eq] at hd
      split_ifs at hd with hdd
      · obtain rfl := Option.some.inj hd
        exact .inr ⟨rfl, hdd, hfinds⟩
      · exact .inl hd
  | unreached =>
      obtain ⟨_, _, heq⟩ := s.unreached_frame _ _ _ _
      rw [heq] at hd
      exact .inl hd
  | @controlled a e' session server writes =>
      obtain ⟨_, _, _, _, _, _, heq⟩ :=
        s.controlled_frame a session e' server writes (breaks e' server)
      rw [heq] at hd
      exact .inl hd
  | notFound | unknown | mismatched | delivered | late | helloDropped => exact .inl (herase hd)
  | turnedAway | connected | greeted | contextDropped | saturated | admitted | unidentified | full
  | inserted | advertised | unadvertised | rolledBack | left | exited | abortedRollingBack | aborted
  | received | gaveUp | relaying | ended | relayDropped => exact .inl hd

/-- The lookup found a Session that runs, under the id and the principal of the
data connection. -/
def FindsLive (s : Hub) (task : HelloTask) : Prop :=
  s.registry.lookup task.hello.sessionId = some task.context ∧
    ∃ session, s.sessions.lookup task.context = some session ∧
      session.server.phase = .running ∧ session.server.sessionId = task.hello.sessionId ∧
      session.principal = task.principal

theorem Registered.findsLive (hs : Registered s) {task : HelloTask} (h : s.Finds task) :
    s.FindsLive task := by
  obtain ⟨hreg, -, session, hk, hprincipal⟩ := h
  obtain ⟨session', hk', hid, hphase⟩ := hs.running _ _ hreg
  obtain rfl := Option.some.inj (hk.symm.trans hk')
  exact ⟨hreg, session, hk, hphase, hid, hprincipal⟩

/-- A data connection that waits for a lock has found its Session at an earlier
point of the run. -/
theorem found_before {es : List HubEvent}
    (hfresh : AllSteps Hub.step (fun s e => s.fresh e = true) (Hub.init c) es)
    (hrun : exec Hub.step (Hub.init c) es = some s) {d : StreamId} {task : HelloTask}
    (hd : s.hellos.lookup d = some task) :
    ∃ es₁ es₂ u, es = es₁ ++ .dataHello task.hello task.principal :: es₂ ∧
      exec Hub.step (Hub.init c) es₁ = some u ∧ u.FindsLive task := by
  have hnone : ¬ (Hub.init c).hellos.lookup d = some task := by simp [Hub.init]
  obtain ⟨es₁, e, es₂, u, v, rfl, hu, huv, hbefore, hafter, -⟩ :=
    exec_origin (P := fun s => s.hellos.lookup d = some task) hnone hrun hd
  rcases hellos_step huv hafter with h | ⟨rfl, -, hfinds⟩
  · exact absurd h hbefore
  · exact ⟨es₁, es₂, u, rfl, hu, (singleUse_exec hfresh.of_append hu).registered.findsLive hfinds⟩

/-- The entry of an id in the pending map of a context. -/
def entryOf (s : Hub) (k : ContextId) (c : ConnectionId) : Option PendingEntry :=
  (s.sessions.lookup k).bind (·.pending.lookup c)

theorem entryOf_eq_some {k : ContextId} {id : ConnectionId} {entry : PendingEntry} :
    s.entryOf k id = some entry ↔ s.ledger.Holds k id entry := by
  rw [holds_iff]
  exact Option.bind_eq_some_iff

/-- Behind the lock, only the entry that was named can change. -/
theorem entryOf_resolve {d : StreamId} {task : HelloTask} {session : ServerSession} {now : Instant}
    (hk : s.sessions.lookup task.context = some session) {k : ContextId} {id : ConnectionId}
    (hne : (k, id) ≠ (task.context, task.hello.connectionId)) :
    (s.resolve d task session now).entryOf k id = s.entryOf k id := by
  have hput : (s.resolve d task session now).sessions
      = s.sessions.insert task.context { session with
          pending := (claimPending session.pending s.gauges.pending task.hello.connectionId).1 } := by
    unfold Hub.resolve
    dsimp only
    split
    · rfl
    · split_ifs <;> rfl
  unfold entryOf
  rw [hput, Table.lookup_insert_eq]
  split_ifs with hkk
  · rw [hkk, hk]
    have hid : id ≠ task.hello.connectionId := fun h => hne (by rw [hkk, h])
    unfold claimPending
    split
    · exact (Table.lookup_erase_eq _ _ _).trans (if_neg hid)
    · rfl
  · rfl

/-- **A `ConnectionId` is good for one stream.**  In every interleaving with
fresh ids:

* no id has had two streams, and each stream went to the external connection
  its id was issued for, which is the one whose relay has it;
* a stream is sent only for an unexpired entry of the named Service, pending in
  the Session that the registry held, alive and with the same principal, when
  the `DataHello` looked;
* a `DataHello` that finds no such Session changes no pending map, and any other
  only the entry it names. -/
theorem connection_single_use (c : HubConfig) (es : List HubEvent) (s : Hub)
    (hfresh : AllSteps step (fun s e => s.fresh e = true) (init c) es)
    (hrun : exec step (init c) es = some s) :
    (s.issued.map (·.connection)).Nodup ∧
    (s.deliveries.map (·.task.hello.connectionId)).Nodup ∧
    (∀ d ∈ s.deliveries, ∃ r,
      ⟨d.task.hello.connectionId, d.task.context, r, d.external⟩ ∈ s.issued) ∧
    (∀ x relay data, s.relays.lookup x = some relay → relay.state.data = some data →
      ∃ d ∈ s.deliveries, d.external = x ∧ d.stream = data ∧
        d.task.hello.connectionId = relay.connection ∧ d.task.context = relay.context) ∧
    (∀ e t, s.step e = some t → t.deliveries ≠ s.deliveries →
      ∃ d now task entry, e = .resolve d now ∧
        t.deliveries = ⟨task, entry.dataTx, d⟩ :: s.deliveries ∧
        s.entryOf task.context task.hello.connectionId = some entry ∧
        entry.serviceId = task.hello.serviceId ∧ now < entry.expires ∧
        ∃ es₁ es₂ u, es = es₁ ++ .dataHello task.hello task.principal :: es₂ ∧
          exec step (init c) es₁ = some u ∧ u.FindsLive task) ∧
    (∀ hello principal t, s.step (.dataHello hello principal) = some t →
      t.sessions = s.sessions ∧ t.gauges.pending = s.gauges.pending ∧
      ((∀ k, ¬ s.Finds ⟨k, hello, principal⟩) →
        t.hellos.lookup s.next = none ∧
          t.results = s.results ++ [(s.next, .error .authentication)])) ∧
    (∀ d now t, s.step (.resolve d now) = some t → ∃ task, s.hellos.lookup d = some task ∧
      ∀ k id, (k, id) ≠ (task.context, task.hello.connectionId) →
        t.entryOf k id = s.entryOf k id) := by
  have hs := singleUse_exec hfresh hrun
  refine ⟨hs.single.connections, hs.single.once, hs.single.deliveries, ?_, ?_, ?_, ?_⟩
  · intro x relay data hrelay hdata
    obtain ⟨d, hd, rfl, rfl⟩ := hs.single.carries x data (.inr ⟨relay, hrelay, hdata⟩)
    obtain ⟨r, hr⟩ := hs.single.deliveries d hd
    -- the log knows one id for each external connection
    have hissue := hs.single.bears ⟨relay.connection, relay.context, relay.task, d.external⟩
      (.inr ⟨relay, hrelay, rfl, rfl, rfl⟩)
    have heq := List.inj_on_of_nodup_map hs.single.externals hr hissue rfl
    exact ⟨d, hd, rfl, rfl, congrArg Issue.connection heq, congrArg Issue.context heq⟩
  · intro e t h hchanged
    cases idStep_of_step h with
    | quiet hquiet => exact absurd hquiet.deliveries hchanged
    | generate r task id htask => exact absurd rfl hchanged
    | issue r task session id now hat hstate ht hroom =>
        unfold Hub.insert at ht
        split_ifs at ht <;> obtain rfl := Option.some.inj ht <;> exact absurd rfl hchanged
    | deliver d now task session entry hd hk hentry hservice hnow htasks hrelays hinbox hgenerated
        hissued hdeliveries hsessions =>
        refine ⟨d, now, task, entry, rfl, hdeliveries, ?_, hservice, hnow,
          found_before hfresh hrun hd⟩
        rw [entryOf, hk]
        exact hentry
  · intro hello principal t h
    obtain rfl := did_of_step h
    rcases s.dataHello_cases hello principal with ⟨k, hfinds, heq⟩ | ⟨-, heq⟩
    · rw [heq]
      exact ⟨rfl, rfl, fun hnone => absurd hfinds (hnone k)⟩
    · rw [heq]
      exact ⟨rfl, rfl, fun _ => ⟨(Table.lookup_erase_eq _ _ _).trans (if_pos rfl), rfl⟩⟩
  · intro d now t h
    obtain ⟨task, session, hd, hk, rfl⟩ := did_of_step h
    exact ⟨task, hd, fun k id hne => entryOf_resolve hk hne⟩

theorem connection_single_use_after_relay :
    exec step (init smallHub) (relayAndEnd sampleId sampleConnection) = some afterRelay ∧
    afterRelay.deliveries.length = 1 ∧
    (afterRelay.deliveries.map (·.task.hello.connectionId)).Nodup :=
  have hrun := Option.eq_some_of_isSome _
  ⟨hrun, by decide +kernel,
    (connection_single_use smallHub _ afterRelay (by decide +kernel) hrun).2.1⟩

end Hub

end Eggtunnel
