/-
Eggtunnel/Reuse.lean

`ServiceId`s that are used again.

An `Open` carries a `ServiceId` and a `ConnectionId`, and the client dials the
target of whatever Service is active under that id when the frame arrives.  The
frame was issued by one `run_service` task, the task of one registration, and it
waits in the control queue and on the wire while both sides may replace the
registration under the same id.

A `Tunnel` is a link whose `Open`s come from tasks: `tasks` are the `run_service`
tasks with the registration each was spawned for, and `issued` says which
registration a `ConnectionId` was issued for.  A task that has been cancelled may
still finish the connection it is at.
-/
import Eggtunnel.Attribution
import Eggtunnel.Conservation
import Eggtunnel.Drive
import Eggtunnel.Tally
import Eggtunnel.ServerQueue

namespace Eggtunnel

/-! ### The Services a client claims -/

namespace Operation

open ServiceState

variable {s : ServiceState}

/-- The call is a `begin`. -/
def begins : Operation → Bool
  | .begin _ _ _ _ _ => true
  | _ => false

/-- Only an accepted `begin` claims a Service that was not claimed. -/
theorem claimed_apply (hkeyed : s.Keyed) (op : Operation) {y : ClientService}
    (hy : y ∈ (op.apply s).1.claimed) :
    y ∈ s.claimed ∨ ∃ generation reply closed limit,
      op = .begin y generation reply closed limit ∧ op.record s ≠ [] := by
  have hfrom {t : ServiceState} (hdesired : t.desired ⊆ s.desired) (hdescends : Descends s t)
      (hy : y ∈ t.claimed) : y ∈ s.claimed := by
    rcases List.mem_append.mp hy with hy | hy
    · exact List.mem_append_left _ (hdesired hy)
    · obtain ⟨txn, htxn, rfl⟩ := List.mem_map.mp hy
      obtain ⟨txn', htxn', hservice, -⟩ := hdescends txn htxn
      exact List.mem_append_right _ (List.mem_map.mpr ⟨txn', htxn', hservice⟩)
  have houtcome := outcome_apply s op
  generalize (op.apply s).1 = t, (op.apply s).2 = answers, hrecord : op.record s = records
    at houtcome hy
  cases houtcome with
  | quiet desired descends keyed refused =>
      exact .inl (hfrom (desired ▸ List.Subset.refl _) descends hy)
  | begun h =>
      rcases List.mem_cons.mp ((claimed_begin hkeyed h).mem_iff.mp hy) with rfl | hold
      · exact .inr ⟨_, _, _, _, rfl, nofun⟩
      · exact .inl hold
  | committed h hreply => exact .inl ((claimed_commit h).mem_iff.mp hy)
  | unregistered =>
      rename_i id
      refine .inl (hfrom ?_ (unregister_clears hkeyed id).1 hy)
      rw [(lists_unregister s id).1]
      exact fun x hx => (List.mem_filter.mp hx).1

end Operation

namespace Client

variable {s t : Client} {fx : Effects} {e : ClientEvent} {y : ClientService}

theorem represented_of_step {limit : Nat} (hlimit : s.policy.limits.servicesPerSession = limit)
    (hr : s.services.Represented limit) (h : s.step e = some (t, fx)) :
    t.services.Represented limit := by
  rw [← (performs_of_step h).1]
  exact Books.represented_run (b := ⟨s.services, [], []⟩) hr fun op hop =>
    hlimit ▸ (s.within_operations e op hop).1

/-- An accepted `begin` has passed the checks of `Register`. -/
theorem admits_of_record {service : ClientService} {reply : CallerId}
    (h : (Operation.begin service s.generation reply (s.isClosed reply)
      s.policy.limits.servicesPerSession).record s.services ≠ []) :
    s.admits service reply = true := by
  simp only [Operation.record] at h
  split_ifs at h with hfull hclosed
  · exact absurd rfl h
  · exact absurd rfl h
  · rcases hbegin : s.services.begin service s.generation reply with ⟨t, error | ok⟩
    · rw [hbegin] at h
      exact absurd rfl h
    · have hdup := (ServiceState.begin_eq_ok hbegin).1
      simp only [admits, hdup, Bool.eq_false_iff.mpr hclosed, Bool.not_false, Bool.and_true,
        decide_eq_true_eq]
      exact Nat.not_le.mp hfull

/-- Only a `Register` that passes its checks claims a Service. -/
theorem claimed_of_step {limit : Nat} (hlimit : s.policy.limits.servicesPerSession = limit)
    (hr : s.services.Represented limit) (h : s.step e = some (t, fx))
    (hy : y ∈ t.services.claimed) :
    y ∈ s.services.claimed ∨ ∃ caller o now, e = .command (.register y caller) o now ∧
      s.admits y caller = true := by
  have hwithin := fun op hop => (s.within_operations e op hop).1
  have hbranch := s.branch_operations e
  rw [← (performs_of_step h).1] at hy
  generalize s.operations e = ops at hwithin hbranch hy
  -- all that follows a `begin` claims nothing
  have hrest {b : Books} {op : Operation} (hb : b.services.Represented limit)
      (hop : op.begins = false)
      (hy : y ∈ (b.run [op]).services.claimed) : y ∈ b.services.claimed := by
    rcases Operation.claimed_apply hb.keyed op hy with hold | ⟨g, reply, closed, l, rfl, -⟩
    · exact hold
    · cases hop
  cases hbranch with
  | still => exact .inl hy
  | begun hafter =>
      rename_i service reply o now rest
      have hb : (Books.apply ⟨s.services, [], []⟩ (.begin service s.generation reply
          (s.isClosed reply) s.policy.limits.servicesPerSession)).services.Represented limit :=
        Operation.represented_apply hr hlimit
      have hfirst (hy : y ∈ (Books.apply ⟨s.services, [], []⟩ (.begin service s.generation reply
          (s.isClosed reply) s.policy.limits.servicesPerSession)).services.claimed) :
          y ∈ s.services.claimed ∨ ∃ caller o' now',
            ClientEvent.command (.register service reply) o now = .command (.register y caller) o' now' ∧
            s.admits y caller = true := by
        rcases Operation.claimed_apply hr.keyed _ hy with hold | ⟨g, k, closed, l, heq, hrecord⟩
        · exact .inl hold
        · cases heq
          exact .inr ⟨reply, o, now, rfl, admits_of_record hrecord⟩
      rcases hafter with rfl | ⟨deadline, rfl⟩ | rfl | rfl
      · exact hfirst hy
      all_goals exact hfirst (hrest hb rfl hy)
  | ended hphase =>
      rename_i error timedOut
      have hb : (Books.apply ⟨s.services, [], []⟩ (.finishPending error)).services.Represented
          limit := Operation.represented_apply hr trivial
      have hfinish : y ∈ (Books.run ⟨s.services, [], []⟩ [.finishPending error]).services.claimed :=
        hrest (b := Books.apply ⟨s.services, [], []⟩ (.finishPending error)) hb rfl hy
      exact .inl (hrest (b := ⟨s.services, [], []⟩) hr rfl hfinish)
  | _ => exact .inl (hrest (b := ⟨s.services, [], []⟩) hr rfl hy)

/-- A `Register` writes its frame if the Service is no duplicate. -/
theorem duplicate_of_onRegister {service : ClientService} {caller : CallerId} {o : WriteOutcome}
    {now : Instant} {w : Write} (hw : w ∈ (s.onRegister service caller o now).2.writes) :
    s.services.duplicate service = false := by
  unfold onRegister at hw
  split_ifs at hw
  · cases hw
  · cases hw
  · split at hw
    · cases hw
    · rename_i hbegin
      exact (ServiceState.begin_eq_ok hbegin).1

/-- A frame makes the client write nothing but a cleanup. -/
theorem onIncoming_writes {m : Message} {o : WriteOutcome} {w : Write}
    (hw : w ∈ (s.onIncoming m o).2.writes) : ∃ unregister, w.1 = .unregisterService unregister := by
  unfold onIncoming at hw
  split at hw
  · cases hw
  · cases hw
  · cases hw
  · unfold onRegisterAck at hw
    split at hw
    · cases hw
    · cases hw
    · rw [List.mem_singleton.mp hw]
      exact ⟨_, rfl⟩
    · cases hw
  · unfold onError at hw
    split at hw <;> cases hw
  · unfold onRegisterReject at hw
    split_ifs at hw
    · split at hw <;> cases hw
    · cases hw
  · cases hw
  · cases hw

/-- **Who asks for what**: the initial exchange for its next Service, and a
`Register` for its own, which is no duplicate. -/
theorem asks_of_step {register : RegisterService}
    (houtbox : s.phase.isOpen = true → ∀ m ∈ s.outbox, m.isChatter = true)
    (h : s.step e = some (t, fx)) (hw : (.registerService register, .done) ∈ fx.writes) :
    (∃ service todo, s.phase = .registering (service :: todo) false ∧
      register = service.registration) ∨
    ∃ service caller o now, e = .command (.register service caller) o now ∧
      register = service.registration ∧ s.services.duplicate service = false := by
  have hnil (hfx : fx.writes = []) : False := by
    rw [hfx] at hw
    cases hw
  cases did_of_step h with
  | registerNext hphase heq =>
      refine .inl ⟨_, _, hphase, ?_⟩
      unfold registerNext at heq
      dsimp only at heq
      split at heq
      all_goals
        obtain ⟨-, rfl⟩ := Prod.mk.inj heq
        exact Message.registerService.inj (Prod.mk.inj (List.mem_singleton.mp hw)).1
  | incoming _ heq =>
      rw [show fx.writes = _ from congrArg (·.2.writes) heq.symm] at hw
      obtain ⟨unregister, hfalse⟩ := onIncoming_writes hw
      cases hfalse
  | register _ heq =>
      rw [show fx.writes = _ from congrArg (·.2.writes) heq.symm] at hw
      exact .inr ⟨_, _, _, _, rfl, Message.registerService.inj (mem_onRegister_writes hw),
        duplicate_of_onRegister hw⟩
  | @unregister id caller o _ _ _ _ heq =>
      have hwrites := s.onUnregister_writes id caller o
      rw [heq] at hwrites
      rw [show fx.writes = _ from hwrites] at hw
      cases (Prod.mk.inj (List.mem_singleton.mp hw)).1
  | cancelled hready | registrationDeadline hready | outbound hready =>
      rcases step_own hready rfl (houtbox (by rw [hready]; rfl)) h with
        ⟨-, -, hnone | ⟨m, o, hwrites, hm⟩⟩ | ⟨now, x, -, -, hnone, -⟩
      · exact (hnil hnone).elim
      · rw [hwrites] at hw
        obtain ⟨rfl, -⟩ := Prod.mk.inj (List.mem_singleton.mp hw)
        rcases hm with hm | hm <;> cases hm
      · exact (hnil hnone).elim
  | tornDown hphase => exact (hnil (step_closed (by rw [hphase]; rfl) h).2.2.1).elim
  | _ => exact (hnil rfl).elim

/-- The Services of the initial exchange are desired. -/
theorem desired_of_step
    (hs : ∀ todo sent, s.phase = .registering todo sent → todo ⊆ s.services.desired)
    (h : s.step e = some (t, fx)) (todo : List ClientService) (sent : Bool)
    (ht : t.phase = .registering todo sent) : todo ⊆ t.services.desired := by
  have hopen : t.phase.isOpen = true := by
    rw [ht]
    rfl
  rcases hphase : s.phase with ⟨todo', sent'⟩ | - | timedOut | result
  · rcases step_registering hphase h with ⟨-, hkept, hsame, -⟩ | ⟨service, rest, o, -, rfl, -, hnext⟩ |
      ⟨service, rest, m, o, -, rfl, -, rfl, -⟩ | ⟨err, -, rfl, -⟩
    · rw [hkept.services]
      exact hs todo sent (hsame.symm.trans ht)
    · unfold registerNext at hnext
      dsimp only at hnext
      split at hnext
      · obtain ⟨rfl, -⟩ := Prod.mk.inj hnext
        cases ht
        exact hs _ _ hphase
      · obtain ⟨rfl, -⟩ := Prod.mk.inj hnext
        cases ht
    · unfold initialResponse at ht ⊢
      split at ht
      · split_ifs at ht with hid
        · rw [if_pos hid]
          cases rest with
          | nil => cases ht
          | cons next rest =>
              cases ht
              exact fun x hx => hs _ _ hphase (List.mem_cons_of_mem _ hx)
      · cases ht
    · cases ht
  · rw [ready_of_step hphase h hopen] at ht
    cases ht
  all_goals
    rw [(step_closed (by rw [hphase]; rfl) h).2.1] at hopen
    cases hopen

end Client

/-! ### Frames under way -/

/-- The `Open` of a frame. -/
def Message.open? : Message → Option Open
  | .open v => some v
  | _ => none

/-- The `RegisterService` of a frame. -/
def Message.register? : Message → Option RegisterService
  | .registerService register => some register
  | _ => none

theorem Message.open?_eq_none {m : Message} (h : m.isQueued = false) : m.open? = none := by
  cases m with
  | «open» v => cases h
  | _ => rfl

namespace Link

variable {s t : Link} {v : Open}

/-- The `Open`s on their way to the client: on the stream, and in the queue. -/
def underWay (s : Link) : List Open :=
  s.down.filterMap (·.msg.open?) ++ s.server.queue.filterMap Message.open?

/-- A branch of the control loop brings no `Open` under way that was not. -/
theorem underWay_of_branch {e : ServerEvent} {server : Server} {writes : List Write}
    {about : Message → Option Request} {packets : List Packet} (he : e.isBranch = true)
    (h : s.server.step e = some (server, writes)) (hcarry : carry about writes = some packets)
    (hv : v ∈ (s.down ++ packets).filterMap (·.msg.open?) ++ server.queue.filterMap Message.open?) :
    v ∈ s.underWay := by
  obtain ⟨hqueue, hwrites⟩ := Server.traffic_of_step he h
  rcases List.mem_append.mp hv with hv | hv
  · obtain ⟨p, hp, hopen⟩ := List.mem_filterMap.mp hv
    rcases List.mem_append.mp hp with hp | hp
    · exact List.mem_append_left _ (List.mem_filterMap.mpr ⟨p, hp, hopen⟩)
    · -- what is written was at the head of the queue
      obtain ⟨m, hmem, rfl⟩ := mem_carry hcarry p hp
      split_ifs at hwrites
      · obtain ⟨first, o, hhead, rfl⟩ := hwrites
        obtain ⟨rfl, -⟩ := Prod.mk.inj (List.mem_singleton.mp hmem)
        refine List.mem_append_right _ (List.mem_filterMap.mpr ⟨m, ?_, hopen⟩)
        exact List.mem_of_mem_head? hhead
      · cases (Message.open?_eq_none (hwrites _ hmem)).symm.trans hopen
  · obtain ⟨m, hm, hopen⟩ := List.mem_filterMap.mp hv
    refine List.mem_append_right _ (List.mem_filterMap.mpr ⟨m, ?_, hopen⟩)
    rw [hqueue] at hm
    rcases List.mem_append.mp hm with hm | hm
    · split_ifs at hm
      · exact List.mem_of_mem_tail hm
      · exact hm
    · -- only a `Drain` arrives
      cases e with
      | drainQueued deadlineMs =>
          have harriving := Option.mem_toList.mp hm
          unfold Server.arriving at harriving
          split_ifs at harriving
          obtain rfl := Option.some.inj harriving
          cases hopen
      | _ => cases hm

end Link

/-! ### Links with tasks -/

/-- A link whose `Open`s come from `run_service` tasks. -/
structure Tunnel where
  link : Link
  tasks : Table RegistrationId RegisterService
  issued : List (ConnectionId × RegisterService)
  next : RegistrationId

/-- What can happen on the link and in the server's tasks. -/
inductive TunnelEvent
  /-- the server reads the next frame -/
  | serve (os : BindOutcome) (o : WriteOutcome)
  /-- a task issues an id for an external connection and queues the `Open` -/
  | opened (r : RegistrationId) (c : ConnectionId)
  /-- a task ends -/
  | ended (r : RegistrationId)
  /-- any other event of the link -/
  | other (e : LinkEvent)

/-- The events that a tunnel has of its own. -/
def LinkEvent.isTask : LinkEvent → Bool
  | .serve _ _ | .server (.opened _ _) | .server (.childEnded _) => true
  | _ => false

/-- The client's configuration has passed `validate_config`. -/
structure TunnelConfig extends LinkConfig where
  valid : validateServices clientPolicy desired = .ok ()

namespace Tunnel

/-- No task yet. -/
def init (c : TunnelConfig) : Tunnel := ⟨Link.init c.toLinkConfig, ∅, [], 0⟩

/-- The registration that the next frame makes, if it is accepted. -/
def admitted (s : Tunnel) (os : BindOutcome) : Option RegisterService :=
  match s.link.up with
  | ⟨.registerService register, _⟩ :: _ =>
      match (s.link.server.registerService register os).2 with
      | .accepted _ => some register
      | .refused _ => none
  | _ => none

/-- One move of one party. -/
def step (s : Tunnel) : TunnelEvent → Option Tunnel
  | .serve os o => (s.link.step (.serve os o)).map fun link =>
      match s.admitted os with
      | some register =>
          { s with link, tasks := s.tasks.insert s.next register, next := s.next + 1 }
      | none => { s with link }
  | .opened r c => (s.tasks.lookup r).bind fun register =>
      (s.link.step (.server (.opened register.serviceId c))).map fun link =>
        { s with link, issued := (c, register) :: s.issued }
  | .ended r => (s.tasks.lookup r).bind fun register =>
      (s.link.step (.server (.childEnded register.serviceId))).map fun link =>
        { s with link, tasks := s.tasks.erase r }
  | .other e => if e.isTask then none else (s.link.step e).map fun link => { s with link }

/-- The registrations an `Open` may still come from: those that are asked for,
those whose task runs, and those an `Open` under way was issued for. -/
def traces (s : Tunnel) : List RegisterService :=
  s.link.up.filterMap (·.msg.register?) ++ s.tasks.values
    ++ s.link.underWay.flatMap fun v =>
      (s.issued.filter (·.1 = v.connectionId)).map (·.2)

/-- `ConnectionId`s are drawn at random: none is issued twice. -/
def freshId (s : Tunnel) : TunnelEvent → Bool
  | .opened _ c => s.issued.all (·.1 ≠ c)
  | _ => true

/-- A `Register` that the client takes up finds under its `ServiceId` no trace
of another registration. -/
def retired (s : Tunnel) : TunnelEvent → Bool
  | .other (.register service _ _) =>
      !s.link.client.admits service s.link.nextCaller
        || s.traces.all fun x => x.serviceId ≠ service.id || x = service.registration
  | _ => true

/-! ### The invariant -/

/-- What holds in every run whose ids are retired before they are used again. -/
structure Straight (s : Tunnel) : Prop where
  wired : s.link.Wired
  represented : s.link.client.services.Represented
    s.link.client.policy.limits.servicesPerSession
  desired : ∀ todo sent, s.link.client.phase = .registering todo sent →
    todo ⊆ s.link.client.services.desired
  known : ∀ v ∈ s.link.underWay, ∃ x, (v.connectionId, x) ∈ s.issued ∧ x.serviceId = v.serviceId
  once : ∀ c x y, (c, x) ∈ s.issued → (c, y) ∈ s.issued → x = y
  agrees : ∀ x ∈ s.traces, ∀ y ∈ s.link.client.services.claimed, y.id = x.serviceId →
    y.registration = x
  dials : ∀ task ∈ s.link.client.opens, ∃ x, (task.frame.connectionId, x) ∈ s.issued ∧
    task.service.registration = x

variable {s t : Tunnel}

theorem mem_traces {x : RegisterService} : x ∈ s.traces ↔
    (∃ p ∈ s.link.up, p.msg = .registerService x) ∨ (∃ r, s.tasks.lookup r = some x) ∨
    ∃ v ∈ s.link.underWay, (v.connectionId, x) ∈ s.issued := by
  have hregister {m : Message} : m.register? = some x ↔ m = .registerService x := by
    cases m <;> simp [Message.register?]
  simp only [traces, List.mem_append, List.mem_filterMap, hregister, Table.mem_values,
    List.mem_flatMap, List.mem_map, List.mem_filter, decide_eq_true_eq, or_assoc]
  refine or_congr_right (or_congr_right (exists_congr fun v => and_congr_right fun _ => ?_))
  constructor
  · rintro ⟨⟨c, y⟩, ⟨hmem, rfl⟩, rfl⟩
    exact hmem
  · exact fun hmem => ⟨_, ⟨hmem, rfl⟩, rfl⟩

/-- A step that brings up nothing new. -/
theorem Straight.of_subset (hs : Straight s) (hwired : t.link.Wired)
    (hclient : t.link.client = s.link.client) (hissued : t.issued = s.issued)
    (hunderWay : t.link.underWay ⊆ s.link.underWay) (htraces : t.traces ⊆ s.traces) :
    Straight t where
  wired := hwired
  represented := hclient ▸ hs.represented
  desired := hclient ▸ hs.desired
  known v hv := hissued ▸ hs.known v (hunderWay hv)
  once := hissued ▸ hs.once
  agrees x hx := hclient ▸ hs.agrees x (htraces hx)
  dials := hclient ▸ hissued ▸ hs.dials

/-- What the client takes up agrees with every trace. -/
theorem agrees_clientStep {e : ClientEvent} {c : Client} {fx : Effects} {packets : List Packet}
    {caller : Option CallerId} (hs : Straight s) (hstep : s.link.client.step e = some (c, fx))
    (hcarry : Link.carry (Link.asking caller) fx.writes = some packets)
    (hregister : ∀ service k o now, e = .command (.register service k) o now →
      s.link.client.admits service k = true →
      ∀ x ∈ s.traces, x.serviceId = service.id → x = service.registration)
    {x : RegisterService} (hx : x ∈ s.traces ∨ ∃ p ∈ packets, p.msg = .registerService x)
    {y : ClientService} (hy : y ∈ c.services.claimed) (hid : y.id = x.serviceId) :
    y.registration = x := by
  rcases Client.claimed_of_step rfl hs.represented hstep hy with hold | ⟨k, o, now, rfl, hadmits⟩
  · rcases hx with hx | ⟨p, hp, hmsg⟩
    · exact hs.agrees x hx y hold hid
    · obtain ⟨m, hmem, rfl⟩ := Link.mem_carry hcarry p hp
      obtain rfl : m = .registerService x := hmsg
      rcases Client.asks_of_step (fun hopen => (hs.wired.client hopen).outbox) hstep hmem with
        ⟨service, todo, hphase, rfl⟩ | ⟨service, k, o, now, -, rfl, hdup⟩
      · -- the ids of the desired Services are distinct
        have hservice : service ∈ s.link.client.services.claimed :=
          List.mem_append_left _ (hs.desired _ _ hphase List.mem_cons_self)
        rw [List.inj_on_of_nodup_map hs.represented.ids hold hservice hid]
      · refine absurd ?_ (ServiceState.not_mem_claimed_of_not_duplicate hdup).1
        exact List.mem_map.mpr ⟨y, hold, hid⟩
  · rcases hx with hx | ⟨p, hp, hmsg⟩
    · exact (hregister y k o now rfl hadmits x hx hid.symm).symm
    · obtain ⟨m, hmem, rfl⟩ := Link.mem_carry hcarry p hp
      obtain rfl : m = .registerService x := hmsg
      rcases Client.asks_of_step (fun hopen => (hs.wired.client hopen).outbox) hstep hmem with
        ⟨service, todo, hphase, -⟩ | ⟨service, k', o', now', heq, rfl, -⟩
      · cases hphase.symm.trans (Client.ready_of_command hstep)
      · cases heq
        rfl

/-- A step of the client. -/
theorem Straight.clientStep {link link' : Link} {e : ClientEvent} {caller : Option CallerId}
    {source : Source} (hs : Straight s) (h : link.clientStep e caller source = some link')
    (hclient : link.client = s.link.client)
    (hserver : link.server = s.link.server) (hup : link.up = s.link.up)
    (hdown : link.down ⊆ s.link.down) (hwired : link'.Wired)
    (hopen : ∀ frame o, e = .incoming (.open frame) o → frame ∈ s.link.underWay)
    (hregister : ∀ service k o now, e = .command (.register service k) o now →
      s.link.client.admits service k = true →
      ∀ x ∈ s.traces, x.serviceId = service.id → x = service.registration) :
    Straight { s with link := link' } := by
  obtain ⟨c, fx, packets, hstep, hcarry, rfl⟩ := Link.clientStep_eq_some h
  rw [hclient] at hstep
  have hunderWay : ({ link with
      client := c
      up := link.up ++ packets
      answers := link.answers ++ fx.answers.map (source, ·) } : Link).underWay
        ⊆ s.link.underWay := by
    intro v hv
    unfold Link.underWay at hv ⊢
    dsimp only at hv
    rw [hserver] at hv
    rcases List.mem_append.mp hv with hv | hv
    · obtain ⟨p, hp, hmsg⟩ := List.mem_filterMap.mp hv
      exact List.mem_append_left _ (List.mem_filterMap.mpr ⟨p, hdown hp, hmsg⟩)
    · exact List.mem_append_right _ hv
  have hpolicy := (Client.fixed_step hstep).1
  refine ⟨hwired, ?_, Client.desired_of_step hs.desired hstep,
    fun v hv => hs.known v (hunderWay hv), hs.once, fun x hx y hy hid => ?_, fun task htask => ?_⟩
  · dsimp only
    rw [hpolicy]
    exact Client.represented_of_step rfl hs.represented hstep
  · refine agrees_clientStep hs hstep hcarry hregister ?_ hy hid
    rcases mem_traces.mp hx with ⟨p, hp, hmsg⟩ | htask | ⟨v, hv, hissued⟩
    · rcases List.mem_append.mp hp with hp | hp
      · exact .inl (mem_traces.mpr (.inl ⟨p, hup ▸ hp, hmsg⟩))
      · exact .inr ⟨p, hp, hmsg⟩
    · exact .inl (mem_traces.mpr (.inr (.inl htask)))
    · exact .inl (mem_traces.mpr (.inr (.inr ⟨v, hunderWay hv, hissued⟩)))
  · rcases Client.opens_of_step hstep htask with hold | ⟨o, heq, hactive⟩
    · exact hs.dials task hold
    · -- the `Open` was issued for the Service that is active
      obtain ⟨x, hissued, hservice⟩ := hs.known task.frame (hopen _ o heq)
      obtain ⟨hid, hmem⟩ := hs.represented.active _ _ hactive
      refine ⟨x, hissued, ?_⟩
      refine hs.agrees x (mem_traces.mpr (.inr (.inr ⟨_, hopen _ o heq, hissued⟩))) _
        (List.mem_append_left _ hmem) ?_
      exact hid.trans hservice.symm

/-- A step of the server that none of its tasks takes. -/
theorem Straight.serverStep {e : ServerEvent} {link : Link} (hs : Straight s)
    (htask : LinkEvent.isTask (.server e) = false) (hwired : link.Wired)
    (h : s.link.serverStep e = some link) : Straight { s with link } := by
  obtain ⟨server, writes, packets, hstep, hcarry, rfl⟩ := Link.serverStep_eq_some h
  have hunderWay : ({ s.link with server, down := s.link.down ++ packets } : Link).underWay
      ⊆ s.link.underWay := by
    intro v hv
    cases hbranch : e.isBranch with
    | true => exact Link.underWay_of_branch hbranch hstep hcarry hv
    | false =>
        cases e with
        | elsewhere counters =>
            simp only [Server.step] at hstep
            split_ifs at hstep
            obtain ⟨rfl, rfl⟩ := Prod.mk.inj (Option.some.inj hstep)
            obtain rfl := Option.some.inj hcarry
            unfold Link.underWay at hv
            rwa [List.append_nil] at hv
        | opened | childEnded => cases htask
        | _ => cases hbranch
  refine hs.of_subset hwired rfl rfl hunderWay fun x hx => ?_
  refine mem_traces.mpr ((mem_traces.mp hx).imp_right (Or.imp_right ?_))
  rintro ⟨v, hv, hissued⟩
  exact ⟨v, hunderWay hv, hissued⟩

/-- The server reads a frame: an accepted registration has its trace go from
the stream to a task. -/
theorem Straight.serve {os : BindOutcome} {o : WriteOutcome} (hs : Straight s)
    (h : s.step (.serve os o) = some t) : Straight t := by
  obtain ⟨link, hlink, rfl⟩ := Option.map_eq_some_iff.mp h
  have hwired := hs.wired.step hlink
  simp only [Link.step] at hlink
  split at hlink
  · rename_i packet up hup
    obtain ⟨server, writes, packets, hstep, hcarry, rfl⟩ := Link.serveStep_eq_some hlink
    have hunderWay {v : Open} (hv : v ∈ Link.underWay { s.link with
        server
        up := if packet.about.isSome && packets.isEmpty then s.link.up else up
        down := s.link.down ++ packets
        verdicts := s.link.verdicts ++ packets.filterMap fun p => p.about.map (·, p.msg) }) :
        v ∈ s.link.underWay := Link.underWay_of_branch rfl hstep hcarry hv
    have hstill {p : Packet}
        (hp : p ∈ if packet.about.isSome && packets.isEmpty then s.link.up else up) :
        p ∈ s.link.up := by
      split_ifs at hp
      · exact hp
      · exact hup ▸ List.mem_cons_of_mem _ hp
    rcases hadmitted : s.admitted os with - | register
    · refine hs.of_subset hwired rfl rfl (fun v => hunderWay) fun x hx => ?_
      rcases mem_traces.mp hx with ⟨p, hp, hmsg⟩ | htask | ⟨v, hv, hissued⟩
      · exact mem_traces.mpr (.inl ⟨p, hstill hp, hmsg⟩)
      · exact mem_traces.mpr (.inr (.inl htask))
      · exact mem_traces.mpr (.inr (.inr ⟨v, hunderWay hv, hissued⟩))
    · refine hs.of_subset hwired rfl rfl (fun v => hunderWay) fun x hx => ?_
      rcases mem_traces.mp hx with ⟨p, hp, hmsg⟩ | ⟨r, hr⟩ | ⟨v, hv, hissued⟩
      · exact mem_traces.mpr (.inl ⟨p, hstill hp, hmsg⟩)
      · dsimp only at hr
        rw [Table.lookup_insert_eq] at hr
        split_ifs at hr
        · obtain rfl := Option.some.inj hr
          refine mem_traces.mpr (.inl ⟨packet, hup ▸ List.mem_cons_self, ?_⟩)
          unfold admitted at hadmitted
          rw [hup] at hadmitted
          split at hadmitted
          · rename_i heq
            cases heq
            split at hadmitted
            · cases hadmitted
              rfl
            · cases hadmitted
          · cases hadmitted
        · exact mem_traces.mpr (.inr (.inl ⟨r, hr⟩))
      · exact mem_traces.mpr (.inr (.inr ⟨v, hunderWay hv, hissued⟩))
  · cases hlink

/-- A task issues an id that nobody has had. -/
theorem Straight.opened {r : RegistrationId} {c : ConnectionId} (hs : Straight s)
    (hfresh : ∀ p ∈ s.issued, p.1 ≠ c) (h : s.step (.opened r c) = some t) : Straight t := by
  obtain ⟨register, hr, h⟩ := Option.bind_eq_some_iff.mp h
  obtain ⟨link, hlink, rfl⟩ := Option.map_eq_some_iff.mp h
  have hwired := hs.wired.step hlink
  simp only [Link.step, ServerEvent.isOwn, if_true] at hlink
  obtain ⟨server, writes, packets, hstep, hcarry, rfl⟩ := Link.serverStep_eq_some hlink
  obtain ⟨rfl, rfl⟩ : server = s.link.server.trySend (.open ⟨register.serviceId, c⟩) ∧ writes = [] := by
    rcases hphase : s.link.server.phase with - | result
    · simp only [Server.step, hphase] at hstep
      split_ifs at hstep
      obtain ⟨rfl, rfl⟩ := Prod.mk.inj (Option.some.inj hstep)
      exact ⟨rfl, rfl⟩
    · simp only [Server.step, hphase, reduceCtorEq] at hstep
  obtain rfl := Option.some.inj hcarry
  have hunderWay {v : Open} (hv : v ∈ Link.underWay { s.link with
      server := s.link.server.trySend (.open ⟨register.serviceId, c⟩)
      down := s.link.down ++ [] }) :
      v ∈ s.link.underWay ∨ v = ⟨register.serviceId, c⟩ := by
    unfold Link.underWay at hv
    dsimp only at hv
    rw [List.append_nil, Server.queue_trySend] at hv
    split_ifs at hv
    · rw [List.filterMap_append, ← List.append_assoc] at hv
      exact (List.mem_append.mp hv).imp_right fun hnew => List.mem_singleton.mp hnew
    · exact .inl hv
  refine ⟨hwired, hs.represented, hs.desired, fun v hv => ?_, fun d x y hx hy => ?_,
    fun x hx => ?_, fun task htask => ?_⟩
  · rcases hunderWay hv with hold | rfl
    · obtain ⟨x, hissued, hservice⟩ := hs.known v hold
      exact ⟨x, List.mem_cons_of_mem _ hissued, hservice⟩
    · exact ⟨register, List.mem_cons_self, rfl⟩
  · rcases List.mem_cons.mp hx with hx | hx <;> rcases List.mem_cons.mp hy with hy | hy
    · cases hx
      cases hy
      rfl
    · cases hx
      exact absurd rfl (hfresh _ hy)
    · cases hy
      exact absurd rfl (hfresh _ hx)
    · exact hs.once d x y hx hy
  · refine hs.agrees x (mem_traces.mpr ?_)
    refine (mem_traces.mp hx).imp_right (Or.rec .inl ?_)
    rintro ⟨v, hv, hissued⟩
    rcases List.mem_cons.mp hissued with hnew | hold
    · cases hnew
      exact .inl ⟨r, hr⟩
    · rcases hunderWay hv with hv | rfl
      · exact .inr ⟨v, hv, hold⟩
      · exact absurd rfl (hfresh _ hold)
  · obtain ⟨x, hissued, hdials⟩ := hs.dials task htask
    exact ⟨x, List.mem_cons_of_mem _ hissued, hdials⟩

theorem Straight.ended {r : RegistrationId} (hs : Straight s) (h : s.step (.ended r) = some t) :
    Straight t := by
  obtain ⟨register, -, h⟩ := Option.bind_eq_some_iff.mp h
  obtain ⟨link, hlink, rfl⟩ := Option.map_eq_some_iff.mp h
  have hwired := hs.wired.step hlink
  simp only [Link.step, ServerEvent.isOwn, if_true] at hlink
  obtain ⟨server, writes, packets, hstep, hcarry, rfl⟩ := Link.serverStep_eq_some hlink
  obtain ⟨hqueue, rfl⟩ : server.queue = s.link.server.queue ∧ writes = [] := by
    rcases hphase : s.link.server.phase with - | result
    · simp only [Server.step, hphase] at hstep
      obtain ⟨rfl, rfl⟩ := Prod.mk.inj (Option.some.inj hstep)
      exact ⟨rfl, rfl⟩
    · simp only [Server.step, hphase, reduceCtorEq] at hstep
  obtain rfl := Option.some.inj hcarry
  have hunderWay : Link.underWay { s.link with server, down := s.link.down ++ [] }
      = s.link.underWay := by
    unfold Link.underWay
    dsimp only
    rw [List.append_nil, hqueue]
  refine hs.of_subset hwired rfl rfl (fun v hv => hunderWay ▸ hv) fun x hx => mem_traces.mpr ?_
  refine (mem_traces.mp hx).imp_right (Or.imp ?_ ?_)
  · rintro ⟨r', hr'⟩
    dsimp only at hr'
    rw [Table.lookup_erase_eq] at hr'
    split_ifs at hr'
    exact ⟨r', hr'⟩
  · rintro ⟨v, hv, hissued⟩
    exact ⟨v, hunderWay ▸ hv, hissued⟩

/-- **A step whose ids are retired keeps the registrations apart.** -/
theorem Straight.step {e : TunnelEvent} (hs : Straight s) (hfresh : s.freshId e = true)
    (hretired : s.retired e = true) (h : s.step e = some t) : Straight t := by
  cases e with
  | serve os o => exact hs.serve h
  | opened r c =>
      refine hs.opened (fun p hp => ?_) h
      exact of_decide_eq_true (List.all_eq_true.mp hfresh p hp)
  | ended r => exact hs.ended h
  | other e =>
      simp only [Tunnel.step, Option.ite_none_left_eq_some, Option.map_eq_some_iff] at h
      obtain ⟨htask, link, hlink, rfl⟩ := h
      have hwired := hs.wired.step hlink
      cases e with
      | register service o now =>
          simp only [Link.step] at hlink
          refine hs.clientStep hlink rfl rfl rfl (List.Subset.refl _) hwired
            (fun _ _ heq => by cases heq) (fun service k o now heq hadmits x hx hid => ?_)
          cases heq
          simp only [retired, Bool.or_eq_true, Bool.not_eq_true', List.all_eq_true,
            decide_eq_true_eq] at hretired
          rcases hretired with hno | hall
          · exact absurd hadmits (by rw [hno]; exact Bool.false_ne_true)
          · exact (hall x hx).resolve_left (not_not_intro hid)
      | unregister id o now =>
          simp only [Link.step] at hlink
          exact hs.clientStep hlink rfl rfl rfl (List.Subset.refl _) hwired
            (fun _ _ heq => by cases heq) (fun _ _ _ _ heq => by cases heq)
      | deliver o =>
          simp only [Link.step] at hlink
          split at hlink
          · rename_i packet down hdown
            refine hs.clientStep hlink rfl rfl rfl (hdown ▸ List.subset_cons_self _ _) hwired
              (fun frame o' heq => ?_) (fun _ _ _ _ heq => by cases heq)
            refine List.mem_append_left _ (List.mem_filterMap.mpr ⟨packet, ?_, ?_⟩)
            · exact hdown ▸ List.mem_cons_self
            · rw [(ClientEvent.incoming.inj heq).1]
              rfl
          · cases hlink
      | client e =>
          simp only [Link.step, Option.ite_none_right_eq_some] at hlink
          obtain ⟨hown, hlink⟩ := hlink
          refine hs.clientStep hlink rfl rfl rfl (List.Subset.refl _) hwired
            (fun _ _ heq => ?_) (fun _ _ _ _ heq => ?_)
          all_goals
            rw [heq] at hown
            cases hown
      | serve os o => exact absurd rfl htask
      | server e =>
          simp only [Link.step, Option.ite_none_right_eq_some] at hlink
          exact hs.serverStep (Bool.eq_false_iff.mpr htask) hwired hlink.2

/-- A Session starts with the Services of a checked configuration. -/
theorem represented_start {policy : RuntimePolicy} {desired : List ClientService}
    (hvalid : validateServices policy desired = .ok ()) (sessionId : SessionId)
    (correlated : Bool) (counters : Counters) :
    (Client.start policy sessionId correlated (.new desired) counters []).1.services.Represented
      policy.limits.servicesPerSession := by
  have ho : Drive.Orderly ⟨policy, .apart (.new desired) counters [], 0, [], []⟩ :=
    ⟨(Drive.orderly_init (c := ⟨policy, desired⟩) hvalid).represented, fun _ hc => (nomatch hc),
      fun _ hc => (nomatch hc), fun _ hc => (nomatch hc)⟩
  exact (ho.step (e := .authenticated sessionId correlated) rfl).represented

theorem idle_start (policy : RuntimePolicy) (sessionId : SessionId) (correlated : Bool)
    (services : ServiceState) (counters : Counters) :
    (Client.start policy sessionId correlated services counters []).1.opens = [] ∧
      ∀ todo sent, (Client.start policy sessionId correlated services counters []).1.phase
          = .registering todo sent →
        todo = (Client.start policy sessionId correlated services counters []).1.services.desired := by
  unfold Client.start
  dsimp only
  split
  · exact ⟨rfl, fun todo sent hphase => by cases hphase⟩
  · rename_i generation counters' hbegin
    generalize hdesired : (services.setMode _).1.clearActive.desired = desired
    cases desired with
    | nil => exact ⟨rfl, fun todo sent hphase => by cases hphase⟩
    | cons service todo =>
        refine ⟨rfl, fun todo' sent hphase => ?_⟩
        cases hphase
        exact hdesired.symm

theorem Straight.init (c : TunnelConfig) : Straight (init c) := by
  have hpolicy : (Link.init c.toLinkConfig).client.policy = c.clientPolicy :=
    Drive.policy_start _ _ _ _ _ _
  obtain ⟨hopens, htodo⟩ := idle_start c.clientPolicy c.sessionId
    (c.negotiated.has capabilityRegisterReject) (.new c.desired) c.clientCounters
  refine ⟨Link.Wired.init c.toLinkConfig, ?_, fun todo sent hphase => ?_, fun v hv => (nomatch hv),
    fun _ _ _ hx => (nomatch hx), fun x hx => (nomatch hx), fun task htask => ?_⟩
  · show (Link.init c.toLinkConfig).client.services.Represented
      (Link.init c.toLinkConfig).client.policy.limits.servicesPerSession
    rw [hpolicy]
    exact represented_start c.valid _ _ _
  · exact htodo todo sent hphase ▸ List.Subset.refl _
  · exact absurd (hopens ▸ htask) List.not_mem_nil

/-- **No target confusion across `ServiceId` reuse.**  In a run in which every
`ServiceId` is retired before another registration takes it, and
`ConnectionId`s are fresh, every id that the client dials for was issued by the
server, and it was issued for an external connection of the registration whose
target is dialed, and of no other. -/
theorem dials_own_registration (c : TunnelConfig) (es : List TunnelEvent)
    (hrun : exec step (init c) es = some s)
    (hretired : AllSteps step (fun s e => s.freshId e = true ∧ s.retired e = true) (init c) es)
    {task : OpenTask} (htask : task ∈ s.link.client.opens) :
    (∃ x, (task.frame.connectionId, x) ∈ s.issued) ∧
      ∀ x, (task.frame.connectionId, x) ∈ s.issued →
        task.service.registration = x ∧ task.service.target = x.target := by
  have hs : Straight s :=
    exec_inv (fun _ _ _ hs hc hstep => hs.step hc.1 hc.2 hstep) (Straight.init c) hretired hrun
  obtain ⟨x, hissued, hdials⟩ := hs.dials task htask
  refine ⟨⟨x, hissued⟩, fun y hy => ?_⟩
  obtain rfl := hs.once _ _ _ hissued hy
  exact ⟨hdials, hdials ▸ rfl⟩

/-! ### A `ServiceId` used twice -/

/-- A tunnel with the default policies. -/
def smallTunnel : TunnelConfig := ⟨smallLink correlatedPeer [], by decide⟩

/-- The Service that takes the id of `webService`, with a target of its own. -/
def movedService : ClientService := { mailService with id := webService.id }

/-- A `ConnectionId`. -/
def externalId : ConnectionId := ⟨Vector.replicate 16 9⟩

/-- An external connection is accepted for `webService`. -/
def openOne : List TunnelEvent :=
  [.other (.register webService .done 0), .serve (boundAt 1000) .done, .other (.deliver .done),
    .opened 0 externalId]

/-- The `Open` of `openOne` waits in the queue while the `ServiceId` changes
hands. -/
def changeHands : List TunnelEvent :=
  openOne ++ [.other (.unregister webService.id .done 0),
    .other (.register movedService .done 0), .serve (boundAt 1000) .done,
    .serve (boundAt 1001) .done, .other (.deliver .done), .other (.server (.outbound .done)),
    .other (.deliver .done)]

/-- The tunnel after that run. -/
def afterChange : Tunnel :=
  (exec step (init smallTunnel) changeHands).get (by decide +kernel)

/-- The connection that was accepted for `webService` is dialed to the target
of `movedService`. -/
theorem target_confused : ¬ ∀ (c : TunnelConfig) (es : List TunnelEvent) (s : Tunnel),
    exec step (init c) es = some s →
    AllSteps step (fun s e => s.freshId e = true) (init c) es →
    ∀ task ∈ s.link.client.opens, ∀ x, (task.frame.connectionId, x) ∈ s.issued →
      task.service.target = x.target := by
  intro h
  have hconfused := h smallTunnel changeHands afterChange
    (Option.eq_some_of_isSome _) (by decide +kernel)
    ⟨⟨webService.id, externalId⟩, movedService⟩ (by decide +kernel)
    webService.registration (by decide +kernel)
  exact absurd hconfused (by decide)

/-- The tunnel after that run. -/
def afterOpen : Tunnel :=
  (exec step (init smallTunnel) (openOne
    ++ [.other (.server (.outbound .done)), .other (.deliver .done)])).get (by decide +kernel)

theorem dials_own_registration_once :
    ⟨⟨webService.id, externalId⟩, webService⟩ ∈ afterOpen.link.client.opens ∧
      ∀ x, (externalId, x) ∈ afterOpen.issued →
        webService.registration = x ∧ webService.target = x.target :=
  have hdials : ⟨⟨webService.id, externalId⟩, webService⟩ ∈ afterOpen.link.client.opens := by
    decide +kernel
  ⟨hdials, (dials_own_registration smallTunnel _ (Option.eq_some_of_isSome _) (by decide +kernel)
    hdials).2⟩

end Tunnel

end Eggtunnel
