/-
Eggtunnel/Shutdown.lean

`AcceptContext::drain`: the notification of the Sessions at shutdown.

A Session is in the registry before its control loop has a queue: in between it
writes `AuthOk`, and only then `serve_control` puts its sender into
`control_tx` and enters its loop (`publish`).  The drain goes through the
Sessions in the registry, starts over whenever one has registered, and calls on
each `SessionId` once (`Sweep`).  A Session without a sender has had its call,
too.
-/
import Eggtunnel.Station
import Eggtunnel.Sweep

namespace Eggtunnel

/-- The frame is a `Drain`. -/
def Message.isDrain : Message → Bool
  | .drain _ => true
  | _ => false

/-- The `Drain`s that were put into the queue: those in it, and those taken out
and written. -/
def Channel.drains (c : Channel) : Nat :=
  c.queued.countP (·.message.isDrain) + c.sent.countP (·.message.isDrain)

/-- An `Arc<SessionContext>`, with the id of its Session. -/
@[ext] structure SessionRef where
  id : SessionId
  context : ContextId
  deriving DecidableEq

/-- `SessionContext::live`: the registry entries that can be upgraded. -/
def Hub.live (s : Hub) : List SessionRef :=
  (s.registry.entries.map fun x => SessionRef.mk x.1 x.2).filter fun x => s.held x.context

/-- The deadline that goes into the `Drain`. -/
def RuntimePolicy.deadlineMs (p : RuntimePolicy) : UInt32 :=
  let ms := p.timeouts.shutdownGrace / millis 1
  if ms < 2 ^ 32 then UInt32.ofNat ms else UInt32.ofNat (2 ^ 32 - 1)

/-- Where the accept loop stands.  `signalled` tells whether `changed` has fired
since the current pass began. -/
inductive DrainStage
  | serving
  | draining (deadline : Instant) (signalled : Bool)
  /-- the grace period is over: Sessions are cancelled -/
  | expired
  deriving DecidableEq, Repr

/-- The server with its drain.  `published` are the contexts with a sender,
`notices` the registrations that have yet to signal `changed`, and `active` the
Sessions that the current pass holds.

`prompt` and `refused` are never read: the contexts whose control loop has
started before the grace deadline, and those whose sender would not take the
`Drain`. -/
structure Shutdown where
  writers : Writers
  published : List ContextId
  notices : Nat
  now : Instant
  stage : DrainStage
  active : List SessionRef
  sweep : Sweep SessionRef SessionId
  prompt : List ContextId
  refused : List ContextId

/-- What can happen while the server drains. -/
inductive ShutdownEvent
  /-- the accept loop is left -/
  | drain
  /-- a pass comes to one of its Sessions -/
  | visit (x : SessionRef)
  /-- `changed` has fired -/
  | wake
  /-- the grace period ends -/
  | expire
  /-- a registration signals `changed` -/
  | notify
  /-- a control loop gets its queue and starts -/
  | publish (k : ContextId)
  | elapse (d : Duration)
  /-- any other event of the server -/
  | other (e : WriterEvent)

namespace Shutdown

/-- The server serves. -/
def init (c : HubConfig) : Shutdown where
  writers := .init c
  published := []
  notices := 0
  now := 0
  stage := .serving
  active := []
  sweep := .empty
  prompt := []
  refused := []

/-! ### Steps -/

/-- The grace deadline is still to come. -/
def inTime (s : Shutdown) : Bool :=
  match s.stage with
  | .serving => true
  | .draining deadline _ => s.now < deadline
  | .expired => false

/-- Interest in `changed` is registered, and the live Sessions are enumerated. -/
def startPass (s : Shutdown) (deadline : Instant) : Shutdown :=
  { s with
    stage := .draining deadline false
    active := s.writers.hub.live
    sweep := s.sweep.start s.writers.hub.live }

/-- The control loop runs, and there is room in its queue. -/
def hasRoom (s : Shutdown) (k : ContextId) : Bool :=
  (s.writers.hub.sessions.lookup k).any fun session =>
    session.server.phase = .running ∧
      session.server.queue.length < s.writers.hub.policy.limits.controlQueue

/-- `try_send` of the `Drain`. -/
def trySend (s : Shutdown) (k : ContextId) : Shutdown :=
  let refused := if s.hasRoom k then s.refused else k :: s.refused
  match s.writers.step
      (.other (.control k (.drainQueued s.writers.hub.policy.deadlineMs))) with
  | some writers => { s with writers, refused }
  | none => { s with refused }

/-- One turn of the pass.  A Session whose `control_tx` is still empty counts as
notified. -/
def visit (s : Shutdown) (x : SessionRef) : Shutdown :=
  let t := { s with sweep := s.sweep.call SessionRef.id x }
  if x.id ∈ s.sweep.noted then t
  else if x.context ∈ s.published then t.trySend x.context
  else t

/-- A control loop takes no branch before it has started, and is not cancelled
during the grace period.  `Drain`s come from the drain only, which keeps the
contexts of its pass alive. -/
def allows (s : Shutdown) : WriterEvent → Bool
  | .install k _ _ => k ∈ s.published
  | .other (.control _ (.drainQueued _)) => false
  | .other (.control k .cancelled) => k ∈ s.published ∧ s.stage = .expired
  | .other (.control k _) => k ∈ s.published
  | .other (.contextDropped k) => k ∉ s.active.map (·.context)
  | _ => true

/-- A Session has entered the registry. -/
def registers (s : Shutdown) (e : WriterEvent) (t : Writers) : Bool :=
  match e with
  | .other (.connect _ _ _) => s.writers.hub.next < t.hub.next
  | _ => false

/-- One move of the drain loop, or of a Session. -/
def step (s : Shutdown) : ShutdownEvent → Option Shutdown
  | .drain =>
      match s.stage with
      | .serving => some (s.startPass (s.now + s.writers.hub.policy.timeouts.shutdownGrace))
      | _ => none
  | .visit x => if x ∈ s.sweep.todo then some (s.visit x) else none
  | .wake =>
      match s.stage with
      | .draining deadline true => if s.sweep.todo = [] then some (s.startPass deadline) else none
      | _ => none
  | .expire =>
      match s.stage with
      | .draining deadline false =>
          if s.sweep.todo = [] ∧ deadline ≤ s.now then some { s with stage := .expired, active := [] }
          else none
      | _ => none
  | .notify =>
      match s.notices with
      | 0 => none
      | notices + 1 => some { s with
          notices
          stage := match s.stage with
            | .draining deadline _ => .draining deadline true
            | stage => stage }
  | .publish k =>
      (s.writers.hub.sessions.lookup k).bind fun session =>
        if session.greeted = true ∧ k ∉ s.published then
          some { s with
            published := k :: s.published
            prompt := if s.inTime then k :: s.prompt else s.prompt }
        else none
  | .elapse d => some { s with now := s.now + d }
  | .other e =>
      if s.allows e then
        (s.writers.step e).map fun writers =>
          { s with writers, notices := s.notices + (s.registers e writers).toNat }
      else none

/-- The `Drain`s that went into the queue of the Session. -/
def drains (s : Shutdown) (k : ContextId) : Nat := (s.writers.channels k).drains

/-- A new random `SessionId` was never used before. -/
def fresh (s : Shutdown) : ShutdownEvent → Bool
  | .other (.other (.connect id _ _)) => id ∉ s.writers.hub.sessionIds
  | _ => true

/-- When `x` is called on, it has its sender. -/
def posted (x : SessionRef) (s : Shutdown) : ShutdownEvent → Bool
  | .visit y => y = x → x.id ∈ s.sweep.noted ∨ x.context ∈ s.published
  | _ => true

end Shutdown

/-! ### Counting `Drain`s -/

theorem Message.isDrain_of_isQueued {m : Message} (h : m.isQueued = false) : m.isDrain = false := by
  cases m with
  | drain v => cases h
  | _ => rfl

namespace Writers

variable {s t : Writers} {k : ContextId}

/-- A step of the server moves `Drain`s from the queue to the stream, and adds
the one that arrives. -/
theorem drains_advance {e : HubEvent} {hub : Hub} (hs : Announced s) (h : s.hub.step e = some hub)
    (k : ContextId) : (s.advance e k).drains = (s.channels k).drains
      + if s.hub.speaker e = some k then (s.hub.arrival e).toList.countP (·.message.isDrain)
        else 0 := by
  rcases s.advance_cases e k with ⟨hspeaker, heq⟩ | ⟨hspeaker, heq⟩
  · rw [heq, if_pos hspeaker]
    unfold Channel.drains Channel.after
    dsimp only
    rw [List.countP_append, List.countP_append]
    rcases Hub.writes_of_step h hspeaker with ⟨o, o', session, m, rfl, hk, -, hhead, hwrites⟩ |
      ⟨htakes, hnot⟩
    · -- the head of the queue goes to the stream
      have hmirror := (hs.mirrors k session hk).queued
      rcases hqueued : (s.channels k).queued with - | ⟨first, rest⟩
      · rw [hqueued] at hmirror
        rw [← hmirror] at hhead
        cases hhead
      · rw [hqueued] at hmirror
        rw [← hmirror] at hhead
        obtain rfl : first.message = m := Option.some.inj hhead
        rw [hwrites]
        simp only [Hub.takes, ServerEvent.takes, if_true, List.tail_cons, List.map_cons,
          List.map_nil, List.countP_cons, List.countP_nil]
        omega
    · have hnone : (s.hub.writes e).countP (fun w => w.1.isDrain) = 0 :=
        List.countP_eq_zero.mpr fun w hw => by
          rw [Message.isDrain_of_isQueued (hnot w hw)]
          nofun
      rw [htakes, List.countP_map]
      simp only [Bool.false_eq_true, if_false]
      rw [show (fun f : Sent => f.message.isDrain) ∘ _ = fun w : Write => w.1.isDrain from rfl, hnone]
      omega
  · rw [heq, if_neg hspeaker]
    rfl

/-- Only the drain puts `Drain`s into a queue. -/
theorem drains_of_step {e : WriterEvent} (hs : Announced s) (h : s.step e = some t)
    (he : ∀ a deadlineMs, e ≠ .other (.control a (.drainQueued deadlineMs))) (k : ContextId) :
    (t.channels k).drains = (s.channels k).drains := by
  cases moves_of_step h with
  | installed =>
      dsimp only
      rw [Function.update_apply]
      split_ifs with hka
      · rw [hka]
        rfl
      · rfl
  | acknowledged =>
      dsimp only [acknowledge]
      rw [Function.update_apply]
      split_ifs with hka
      · rw [hka]
        unfold Channel.drains
        rw [List.countP_append]
        rfl
      · rfl
  | @went e hub hfree hstep =>
      dsimp only
      rw [drains_advance hs hstep k]
      have hnone : (s.hub.arrival e).toList.countP (·.message.isDrain) = 0 := by
        refine List.countP_eq_zero.mpr fun f hf => ?_
        rw [Option.mem_toList] at hf
        cases e with
        | control a ev =>
            obtain ⟨session, -, hmap⟩ := Option.bind_eq_some_iff.mp hf
            obtain ⟨m, hm, -⟩ := Option.map_eq_some_iff.mp hmap
            cases ev with
            | drainQueued deadlineMs => exact absurd rfl (he a deadlineMs)
            | _ => cases hm
        | advertise r =>
            obtain ⟨task, -, hbind⟩ := Option.bind_eq_some_iff.mp hf
            obtain ⟨session, -, hsome⟩ := Option.bind_eq_some_iff.mp hbind
            split at hsome
            · split_ifs at hsome
              obtain rfl := Option.some.inj hsome
              nofun
            · cases hsome
        | _ => cases hf
      rw [hnone, ite_self, Nat.add_zero]

/-- `try_send` of a `Drain` puts it into the queue if there is room. -/
theorem drains_queued {a : ContextId} {deadlineMs : UInt32} {session : ServerSession}
    (hs : Announced s) (ha : s.hub.sessions.lookup a = some session)
    (h : s.step (.other (.control a (.drainQueued deadlineMs))) = some t) (k : ContextId) :
    (t.channels k).drains = (s.channels k).drains
      + if k = a ∧ session.server.queue.length < s.hub.policy.limits.controlQueue then 1 else 0 := by
  obtain _ | _ | @⟨_, hub, hfree, hstep⟩ := moves_of_step h
  dsimp only
  rw [drains_advance hs hstep k]
  congr 1
  have hspeaker : s.hub.speaker (.control a (.drainQueued deadlineMs)) = some a := rfl
  rw [hspeaker]
  by_cases hka : k = a
  · subst hka
    have hpolicy := hs.policy k session ha
    rw [if_pos rfl, Hub.arrival, ha, Option.bind_some]
    dsimp only [Server.arriving]
    rw [show (s.hub.lent session).policy = s.hub.policy from hpolicy,
      show (s.hub.lent session).queue = session.server.queue from rfl]
    by_cases hroom : session.server.queue.length < s.hub.policy.limits.controlQueue
    · rw [if_pos hroom, if_pos ⟨rfl, hroom⟩]
      rfl
    · rw [if_neg hroom, if_neg fun h => hroom h.2]
      rfl
  · rw [if_neg fun h => hka (Option.some.inj h).symm, if_neg fun h => hka h.1]

end Writers

/-! ### Sessions and their contexts -/

namespace Hub

variable {s t : Hub}

/-- A `SessionId` that has been used stays so. -/
theorem sessionIds_of_step {e : HubEvent} (h : s.step e = some t) {id : SessionId}
    (hid : id ∈ s.sessionIds) : id ∈ t.sessionIds := by
  cases hsessions : e.isSessions with
  | false =>
      rw [(aside_step hsessions h).sessionIds]
      exact hid
  | true =>
      have hdid := did_of_step h
      cases e with
      | connect id' principal negotiated =>
          obtain rfl := hdid
          unfold Hub.connect
          dsimp only
          split_ifs <;> exact List.mem_cons_of_mem _ hid
      | greet a o =>
          obtain ⟨session, -, -, -, rfl⟩ := hdid
          unfold Hub.greet
          dsimp only
          split
          · exact hid
          · obtain ⟨p, -, heq⟩ := Hub.conclude_frame _ a _ false
            rw [heq]
            exact hid
      | control a ev =>
          obtain ⟨session, server, writes, -, -, -, -, rfl⟩ := hdid
          obtain ⟨p, -, heq⟩ := Hub.conclude_frame
            { (s.branch a session ev).1 with counters := server.counters } a
            { (s.branch a session ev).2 with
              server, written := (s.branch a session ev).2.written ++ writes } (breaks ev server)
          rw [heq]
          dsimp only
          rw [(s.branch_frame a session ev).1]
          exact hid
      | contextDropped a =>
          obtain ⟨session, -, -, rfl⟩ := hdid
          exact hid
      | _ => cases hsessions

theorem mem_live {x : SessionRef} (h : x ∈ s.live) : s.registry.lookup x.id = some x.context := by
  obtain ⟨y, hy, rfl⟩ := List.mem_map.mp (List.mem_filter.mp h).1
  exact AList.mem_lookup_iff.mpr hy

/-- What a step leaves of the Sessions of a server. -/
structure Keeps (s t : Hub) : Prop where
  registered : t.Registered
  numbered : t.Numbered
  next : s.next ≤ t.next
  ids : ∀ id ∈ s.sessionIds, id ∈ t.sessionIds
  /-- a new registry entry is of a new Session -/
  registry : ∀ id k, t.registry.lookup id = some k → s.registry.lookup id = some k ∨
    id ∉ s.sessionIds ∧ k = s.next
  greeted : ∀ k session', t.sessions.lookup k = some session' → k < s.next →
    ∃ session, s.sessions.lookup k = some session ∧
      (session.greeted = true → session'.greeted = true)

theorem keeps_of_step {e : HubEvent} (hregistered : s.Registered) (hnumbered : s.Numbered)
    (hfresh : ∀ id principal negotiated, e = .connect id principal negotiated →
      id ∉ s.sessionIds) (h : s.step e = some t) : Keeps s t := by
  have hunused : s.unused e = true := by
    cases e with
    | connect id principal negotiated =>
        refine hregistered.unused ?_
        simpa [fresh] using hfresh id principal negotiated rfl
    | _ => rfl
  refine ⟨hregistered.step hnumbered hunused h, hnumbered.step h, (steady_step h).next,
    fun id hid => sessionIds_of_step h hid, fun id k hid => ?_, fun k session' hk' hlt => ?_⟩
  · rcases registry_of_step h hid with hold | ⟨principal, negotiated, rfl, hnew, -⟩
    · exact .inl hold
    · exact .inr ⟨hfresh id principal negotiated rfl, hnew⟩
  · cases sessionMove_of_step h hk' with
    | still session hk hsame => exact ⟨session, hk, fun hg => hsame.greeted.trans hg⟩
    | begun id principal negotiated hnext => exact absurd hnext hlt.ne
    | greeted o session hk hbefore hrun hdone hafter =>
        exact ⟨session, hk, fun _ => by rw [hafter]⟩
    | unreached o session error hk hbefore hrun hafter =>
        exact ⟨session, hk, fun hg => by rw [hafter]; exact hg⟩
    | moved ev session server writes pending hk hgreeted hbranch hstep hafter =>
        exact ⟨session, hk, fun hg => by rw [hafter]; exact hg⟩

theorem Keeps.rewrites {u : Hub} (hs : Keeps s t) (h : Rewrites t u) : Keeps s u := by
  have hback := h
  obtain ⟨a, other, written, ha, rfl⟩ := h
  refine ⟨hs.registered.rewrites hback rfl rfl, fun k session' hk' => ?_, hs.next, hs.ids,
    hs.registry, fun k session' hk' hlt => ?_⟩
  · obtain ⟨session, written', hk, -⟩ := hback.backward hk'
    exact hs.numbered k session hk
  · obtain ⟨session, written', hk, rfl⟩ := hback.backward hk'
    exact hs.greeted k session hk hlt

end Hub

namespace Writers

variable {s t : Writers}

theorem keeps_of_step {e : WriterEvent} (hwaiting : Waiting s) (hregistered : s.hub.Registered)
    (hnumbered : s.hub.Numbered) (hfresh : ∀ id principal negotiated,
      e = .other (.connect id principal negotiated) → id ∉ s.hub.sessionIds)
    (h : s.step e = some t) : s.hub.Keeps t.hub := by
  obtain ⟨e', hub, hstep, -, hsame, he⟩ := hub_of_step hwaiting h
  have hkeeps : s.hub.Keeps hub := by
    refine Hub.keeps_of_step hregistered hnumbered (fun id principal negotiated he' => ?_) hstep
    rcases he with rfl | ⟨k, ev, rfl⟩
    · exact hfresh id principal negotiated (congrArg _ he')
    · cases he'
  rcases hsame with rfl | hrewrites
  · exact hkeeps
  · exact hkeeps.rewrites hrewrites

end Writers

namespace Shutdown

variable {s t : Shutdown} {x : SessionRef} {k : ContextId}

/-- The Sessions that were on some pass, by their ids and by their contexts. -/
structure Paired (s : Shutdown) : Prop where
  announced : s.writers.Announced
  waiting : s.writers.Waiting
  registered : s.writers.hub.Registered
  issued : ∀ x ∈ s.sweep.seen, x.id ∈ s.writers.hub.sessionIds ∧ x.context < s.writers.hub.next
  entered : ∀ x ∈ s.sweep.seen, ∀ id k, s.writers.hub.registry.lookup id = some k →
    (id = x.id ↔ k = x.context)
  paired : ∀ x ∈ s.sweep.seen, ∀ y ∈ s.sweep.seen, x.id = y.id ↔ x.context = y.context

theorem Paired.still (hs : Paired s) (hwriters : t.writers = s.writers)
    (hseen : t.sweep.seen = s.sweep.seen) : Paired t := by
  obtain ⟨hannounced, hwaiting, hregistered, hissued, hentered, hpaired⟩ := hs
  constructor <;> simp only [hwriters, hseen] <;> assumption

/-- A step of the server. -/
theorem Paired.moved {e : WriterEvent} (hs : Paired s) (h : s.writers.step e = some t.writers)
    (hseen : t.sweep.seen = s.sweep.seen) (hkeeps : s.writers.hub.Keeps t.writers.hub) :
    Paired t := by
  refine ⟨hs.announced.step h, hs.waiting.step hs.announced.numbered h, hkeeps.registered, ?_, ?_,
    ?_⟩
  · rw [hseen]
    intro x hx
    obtain ⟨hid, hlt⟩ := hs.issued x hx
    exact ⟨hkeeps.ids x.id hid, hlt.trans_le hkeeps.next⟩
  · rw [hseen]
    intro x hx id k hk
    rcases hkeeps.registry id k hk with hold | ⟨hnew, rfl⟩
    · exact hs.entered x hx id k hold
    · -- a Session that has just registered was on no pass
      obtain ⟨hid, hlt⟩ := hs.issued x hx
      exact iff_of_false (fun heq => hnew (heq ▸ hid)) hlt.ne'
  · rw [hseen]
    exact hs.paired

/-- A pass begins with the Sessions in the registry. -/
theorem Paired.startPass (hs : Paired s) (deadline : Instant) : Paired (s.startPass deadline) := by
  have hregistered := hs.registered
  have hseen {x : SessionRef} (hx : x ∈ (s.startPass deadline).sweep.seen) :
      x ∈ s.sweep.seen ∨ s.writers.hub.registry.lookup x.id = some x.context :=
    (List.mem_append.mp hx).imp id Hub.mem_live
  have hentries {id id' : SessionId} {k k' : ContextId}
      (h : s.writers.hub.registry.lookup id = some k)
      (h' : s.writers.hub.registry.lookup id' = some k') : id = id' ↔ k = k' := by
    constructor
    · rintro rfl
      exact Option.some.inj (h.symm.trans h')
    · rintro rfl
      obtain ⟨session, hk, hid, -⟩ := hregistered.running id k h
      obtain ⟨session', hk', hid', -⟩ := hregistered.running id' k h'
      obtain rfl := Option.some.inj (hk.symm.trans hk')
      exact hid.symm.trans hid'
  refine ⟨hs.announced, hs.waiting, hregistered, fun x hx => ?_, fun x hx id k hk => ?_,
    fun x hx y hy => ?_⟩
  · rcases hseen hx with hold | hnew
    · exact hs.issued x hold
    · obtain ⟨session, hk, hid, -⟩ := hregistered.running _ _ hnew
      exact ⟨hid ▸ hregistered.ids _ session hk, hs.announced.numbered _ session hk⟩
  · rcases hseen hx with hold | hnew
    · exact hs.entered x hold id k hk
    · exact hentries hk hnew
  · rcases hseen hx with hold | hnew
    · rcases hseen hy with hold' | hnew'
      · exact hs.paired x hold y hold'
      · rw [eq_comm, eq_comm (a := x.context)]
        exact hs.entered x hold _ _ hnew'
    · rcases hseen hy with hold' | hnew'
      · exact hs.entered y hold' _ _ hnew
      · exact hentries hnew hnew'

/-! ### The calls -/

/-- What holds throughout a run with fresh ids. -/
structure Sound (s : Shutdown) : Prop where
  paired : Paired s
  tracks : s.sweep.Tracks SessionRef.id
  idle : (∀ deadline signalled, s.stage ≠ .draining deadline signalled) → s.sweep.todo = []
  called : ∀ k, 0 < s.drains k → ∃ x ∈ s.sweep.seen, x.context = k ∧ x.id ∈ s.sweep.noted
  once : ∀ k, s.drains k ≤ 1
  greeted : ∀ k ∈ s.published, k < s.writers.hub.next ∧
    ∀ session, s.writers.hub.sessions.lookup k = some session → session.greeted = true

theorem Sound.init (c : HubConfig) : Sound (init c) where
  paired := {
    announced := .init c
    waiting := .init c
    registered := .init c
    issued := nofun
    entered := nofun
    paired := nofun }
  tracks := .empty
  idle _ := rfl
  called _ h := absurd h (Nat.lt_irrefl 0)
  once _ := Nat.zero_le 1
  greeted := nofun

/-- Whoever has not been called on has no `Drain`. -/
theorem Sound.drains_eq_zero (hs : Sound s) (hx : x ∈ s.sweep.seen) (hnoted : x.id ∉ s.sweep.noted) :
    s.drains x.context = 0 := by
  by_contra hne
  obtain ⟨y, hy, hcontext, hcalled⟩ := hs.called x.context (Nat.pos_of_ne_zero hne)
  exact hnoted ((hs.paired.paired y hy x hx).mpr hcontext ▸ hcalled)

theorem hasRoom_iff : s.hasRoom k = true ↔ ∃ session,
    s.writers.hub.sessions.lookup k = some session ∧ session.server.phase = .running ∧
      session.server.queue.length < s.writers.hub.policy.limits.controlQueue := by
  unfold hasRoom
  rcases s.writers.hub.sessions.lookup k with - | session
  · refine iff_of_false (fun h => ?_) fun ⟨_, h, _⟩ => ?_ <;> cases h
  · rw [Option.any_some, decide_eq_true_iff]
    refine ⟨fun h => ⟨session, rfl, h⟩, ?_⟩
    rintro ⟨session', heq, h⟩
    exact Option.some.inj heq ▸ h

/-- A `try_send` to a control loop that runs and has room goes through. -/
theorem Sound.takes (hs : Sound s) (hk : k ∈ s.published) (hroom : s.hasRoom k = true)
    (deadlineMs : UInt32) :
    ∃ writers, s.writers.step (.other (.control k (.drainQueued deadlineMs))) = some writers := by
  obtain ⟨session, hlookup, hrun, -⟩ := hasRoom_iff.mp hroom
  have hlent : (s.writers.hub.lent session).phase = .running := hrun
  have hstep : (s.writers.hub.lent session).step (.drainQueued deadlineMs)
      = some ((s.writers.hub.lent session).trySend (.drain ⟨deadlineMs⟩), []) := by
    simp only [Server.step, hlent]
  obtain ⟨hub, hhub⟩ : ∃ hub, s.writers.hub.step (.control k (.drainQueued deadlineMs)) = some hub :=
    ⟨_, Hub.step_control hlookup ((hs.greeted k hk).2 session hlookup) rfl hstep⟩
  refine ⟨⟨hub, s.writers.advance (.control k (.drainQueued deadlineMs))⟩, ?_⟩
  rw [Writers.step, if_pos (show s.writers.free (.control k (.drainQueued deadlineMs)) = true from
    rfl), hhub]
  rfl

/-- The `Drain` is queued if there is room. -/
theorem Sound.drains_trySend (hs : Sound s) (hk : k ∈ s.published) (a : ContextId) :
    (s.trySend k).drains a = s.drains a + if a = k ∧ s.hasRoom k = true then 1 else 0 := by
  unfold trySend
  dsimp only
  split
  · rename_i writers hstep
    obtain _ | _ | @⟨_, hub, -, hcontrol⟩ := Writers.moves_of_step hstep
    obtain ⟨session, server, writes, hlookup, -, hbranch, hserver, -⟩ := Hub.did_of_step hcontrol
    have hrun : (s.writers.hub.lent session).phase = .running :=
      Server.running_of_branch hbranch hserver
    have hroom : s.hasRoom k = true ↔
        session.server.queue.length < s.writers.hub.policy.limits.controlQueue := by
      rw [hasRoom_iff]
      constructor
      · rintro ⟨session', hlookup', -, hlt⟩
        exact Option.some.inj (hlookup'.symm.trans hlookup) ▸ hlt
      · exact fun hlt => ⟨session, hlookup, hrun, hlt⟩
    refine (Writers.drains_queued hs.paired.announced hlookup hstep a).trans ?_
    simp only [hroom]
    rfl
  · rename_i hnone
    have hfull : ¬ (a = k ∧ s.hasRoom k = true) := by
      rintro ⟨-, hroom⟩
      obtain ⟨writers, hsome⟩ := hs.takes hk hroom s.writers.hub.policy.deadlineMs
      cases hnone.symm.trans hsome
    show s.drains a = s.drains a + _
    rw [if_neg hfull, Nat.add_zero]

/-- The rest of the state is of no account to `try_send`. -/
theorem trySend_sweep (s : Shutdown) (sweep : Sweep SessionRef SessionId) (k : ContextId) :
    ({ s with sweep } : Shutdown).trySend k = { s.trySend k with sweep } := by
  unfold trySend
  dsimp only
  split <;> rfl

theorem trySend_frame (s : Shutdown) (k : ContextId) :
    (s.trySend k).stage = s.stage ∧ (s.trySend k).published = s.published ∧
      (s.trySend k).sweep = s.sweep := by
  unfold trySend
  dsimp only
  split <;> exact ⟨rfl, rfl, rfl⟩

theorem visit_frame (s : Shutdown) (x : SessionRef) :
    (s.visit x).stage = s.stage ∧ (s.visit x).published = s.published ∧
      (s.visit x).sweep = s.sweep.call SessionRef.id x := by
  unfold visit
  dsimp only
  split_ifs
  · exact ⟨rfl, rfl, rfl⟩
  · exact trySend_frame _ _
  · exact ⟨rfl, rfl, rfl⟩

theorem refused_trySend (s : Shutdown) (k : ContextId) :
    (s.trySend k).refused = if s.hasRoom k then s.refused else k :: s.refused := by
  unfold trySend
  dsimp only
  split <;> rfl

/-- What one turn does. -/
inductive Turn (s : Shutdown) (x : SessionRef) (t : Shutdown) : Prop
  /-- it was called on before -/
  | skipped (hnoted : x.id ∈ s.sweep.noted) (hdrains : ∀ a, t.drains a = s.drains a)
      (hrefused : t.refused = s.refused)
  /-- it has no sender yet -/
  | missed (hnoted : x.id ∉ s.sweep.noted) (hsender : x.context ∉ s.published)
      (hdrains : ∀ a, t.drains a = s.drains a) (hrefused : t.refused = s.refused)
  | sent (hnoted : x.id ∉ s.sweep.noted) (hsender : x.context ∈ s.published)
      (hdrains : ∀ a, t.drains a = s.drains a
        + if a = x.context ∧ s.hasRoom x.context = true then 1 else 0)
      (hrefused : t.refused
        = if s.hasRoom x.context then s.refused else x.context :: s.refused)

theorem Sound.turn (hs : Sound s) (x : SessionRef) : Turn s x (s.visit x) := by
  unfold visit
  dsimp only
  split_ifs with hnoted hsender
  · exact .skipped hnoted (fun _ => rfl) rfl
  · rw [trySend_sweep]
    exact .sent hnoted hsender (fun a => hs.drains_trySend hsender a) (s.refused_trySend _)
  · exact .missed hnoted hsender (fun _ => rfl) rfl

/-- The server after a turn: as before, or one step on. -/
theorem writers_visit (s : Shutdown) (x : SessionRef) :
    (s.visit x).writers = s.writers ∨ ∃ k deadlineMs,
      s.writers.step (.other (.control k (.drainQueued deadlineMs))) = some (s.visit x).writers := by
  unfold visit
  dsimp only
  split_ifs
  · exact .inl rfl
  · unfold trySend
    dsimp only
    split
    · rename_i hstep
      exact .inr ⟨_, _, hstep⟩
    · exact .inl rfl
  · exact .inl rfl

/-- A step of the server that is none of the drain. -/
theorem Sound.keeps {e : WriterEvent} {writers : Writers} (hs : Sound s)
    (hfresh : s.fresh (.other e) = true) (h : s.writers.step e = some writers) :
    s.writers.hub.Keeps writers.hub := by
  refine Writers.keeps_of_step hs.paired.waiting hs.paired.registered hs.paired.announced.numbered
    (fun id principal negotiated he => ?_) h
  subst he
  simpa [fresh] using hfresh

theorem Sound.greeted_of_keeps (hs : Sound s) {hub : Hub} (hkeeps : s.writers.hub.Keeps hub)
    (hk : k ∈ s.published) : k < hub.next ∧
      ∀ session, hub.sessions.lookup k = some session → session.greeted = true := by
  obtain ⟨hlt, hgreeted⟩ := hs.greeted k hk
  refine ⟨hlt.trans_le hkeeps.next, fun session' hk' => ?_⟩
  obtain ⟨session, hbefore, hstays⟩ := hkeeps.greeted k session' hk' hlt
  exact hstays (hgreeted session hbefore)

theorem Sound.startPass (hs : Sound s) (htodo : s.sweep.todo = []) (deadline : Instant) :
    Sound (s.startPass deadline) where
  paired := hs.paired.startPass deadline
  tracks := hs.tracks.start htodo _
  idle h := absurd rfl (h deadline false)
  called k hk := by
    obtain ⟨x, hx, hcontext, hnoted⟩ := hs.called k hk
    exact ⟨x, List.mem_append_left _ hx, hcontext, hnoted⟩
  once := hs.once
  greeted := hs.greeted

theorem Sound.visit (hs : Sound s) (hx : x ∈ s.sweep.todo) : Sound (s.visit x) := by
  obtain ⟨hstage, hpublished, hsweep⟩ := s.visit_frame x
  have hseen : x ∈ s.sweep.seen := hs.tracks.todo x hx
  have hkeeps : (s.visit x).writers = s.writers ∨ ∃ k deadlineMs,
      s.writers.step (.other (.control k (.drainQueued deadlineMs))) = some (s.visit x).writers ∧
      s.writers.hub.Keeps (s.visit x).writers.hub := by
    refine (s.writers_visit x).imp id ?_
    rintro ⟨k, deadlineMs, hstep⟩
    exact ⟨k, deadlineMs, hstep, hs.keeps rfl hstep⟩
  have hturn := hs.turn x
  refine ⟨?_, hsweep ▸ hs.tracks.call hx, fun h => ?_, fun k hk => ?_, fun k => ?_, fun k hk => ?_⟩
  · have hsame : (s.visit x).sweep.seen = s.sweep.seen := by
      rw [hsweep]
      rfl
    rcases hkeeps with hwriters | ⟨k, deadlineMs, hstep, hkeeps⟩
    · exact hs.paired.still hwriters hsame
    · exact hs.paired.moved hstep hsame hkeeps
  · have htodo := hs.idle (hstage ▸ h)
    rw [htodo] at hx
    cases hx
  · rw [hsweep]
    have hold (hk : 0 < s.drains k) : ∃ y ∈ s.sweep.seen, y.context = k ∧
        y.id ∈ (s.sweep.call SessionRef.id x).noted := by
      obtain ⟨y, hy, hcontext, hnoted⟩ := hs.called k hk
      exact ⟨y, hy, hcontext, Sweep.mem_noted_call.mpr (.inr hnoted)⟩
    cases hturn with
    | skipped _ hdrains => exact hold (hdrains k ▸ hk)
    | missed _ _ hdrains => exact hold (hdrains k ▸ hk)
    | sent _ _ hdrains =>
        by_cases hkx : k = x.context
        · exact ⟨x, hseen, hkx.symm, Sweep.mem_noted_call.mpr (.inl rfl)⟩
        · rw [hdrains, if_neg fun h => hkx h.1] at hk
          exact hold hk
  · cases hturn with
    | skipped _ hdrains => exact (hdrains k).trans_le (hs.once k)
    | missed _ _ hdrains => exact (hdrains k).trans_le (hs.once k)
    | sent hnoted _ hdrains =>
        rw [hdrains]
        split_ifs with h
        · rw [h.1, hs.drains_eq_zero hseen hnoted]
        · exact hs.once k
  · rw [hpublished] at hk
    rcases hkeeps with hwriters | ⟨_, _, -, hkeeps⟩
    · rw [hwriters]
      exact hs.greeted k hk
    · exact hs.greeted_of_keeps hkeeps hk

/-- Nobody but the drain queues `Drain`s. -/
theorem Sound.drains_other {e : WriterEvent} {writers : Writers} (hs : Sound s)
    (hallows : s.allows e = true) (h : s.writers.step e = some writers) (k : ContextId) :
    (writers.channels k).drains = s.drains k := by
  refine Writers.drains_of_step hs.paired.announced h ?_ k
  rintro a deadlineMs rfl
  cases hallows

/-- The server goes on. -/
theorem Sound.other {e : WriterEvent} {writers : Writers} (hs : Sound s)
    (hfresh : s.fresh (.other e) = true) (hallows : s.allows e = true)
    (h : s.writers.step e = some writers) (notices : Nat) :
    Sound { s with writers, notices } := by
  have hkeeps := hs.keeps hfresh h
  have hdrains := hs.drains_other hallows h
  refine ⟨hs.paired.moved h rfl hkeeps, hs.tracks, hs.idle, fun k hk => ?_, fun k => ?_,
    fun k hk => hs.greeted_of_keeps hkeeps hk⟩
  · exact hs.called k ((hdrains k) ▸ hk)
  · exact (hdrains k).trans_le (hs.once k)

/-- The steps of the drain and of the server. -/
inductive Did (s : Shutdown) : ShutdownEvent → Shutdown → Prop
  | passed {e deadline} (hidle : s.stage = .serving ∨ s.sweep.todo = []) :
      Did s e (s.startPass deadline)
  | turned {y} (hy : y ∈ s.sweep.todo) : Did s (.visit y) (s.visit y)
  | expired (htodo : s.sweep.todo = []) : Did s .expire { s with stage := .expired, active := [] }
  | notified {notices stage} (hstage : ∀ deadline signalled,
      s.stage = .draining deadline signalled → stage = .draining deadline true) :
      Did s .notify { s with notices, stage }
  | published {a session prompt} (ha : s.writers.hub.sessions.lookup a = some session)
      (hgreeted : session.greeted = true) :
      Did s (.publish a) { s with published := a :: s.published, prompt }
  | elapsed {d} : Did s (.elapse d) { s with now := s.now + d }
  | went {e writers notices} (hallows : s.allows e = true)
      (hstep : s.writers.step e = some writers) : Did s (.other e) { s with writers, notices }

theorem did_of_step {e : ShutdownEvent} (h : s.step e = some t) : Did s e t := by
  cases e with
  | drain =>
      dsimp only [Shutdown.step] at h
      split at h
      · rename_i hstage
        obtain rfl := Option.some.inj h
        exact .passed (.inl hstage)
      · cases h
  | visit x =>
      rw [Shutdown.step, Option.ite_none_right_eq_some] at h
      obtain ⟨hx, heq⟩ := h
      obtain rfl := Option.some.inj heq
      exact .turned hx
  | wake =>
      dsimp only [Shutdown.step] at h
      split at h
      · rw [Option.ite_none_right_eq_some] at h
        obtain ⟨htodo, heq⟩ := h
        obtain rfl := Option.some.inj heq
        exact .passed (.inr htodo)
      · cases h
  | expire =>
      dsimp only [Shutdown.step] at h
      split at h
      · rw [Option.ite_none_right_eq_some] at h
        obtain ⟨⟨htodo, -⟩, heq⟩ := h
        obtain rfl := Option.some.inj heq
        exact .expired htodo
      · cases h
  | notify =>
      dsimp only [Shutdown.step] at h
      split at h
      · cases h
      · obtain rfl := Option.some.inj h
        exact .notified fun deadline signalled hstage => by rw [hstage]
  | publish k =>
      obtain ⟨session, hk, h⟩ := Option.bind_eq_some_iff.mp h
      rw [Option.ite_none_right_eq_some] at h
      obtain ⟨⟨hgreeted, -⟩, heq⟩ := h
      obtain rfl := Option.some.inj heq
      exact .published hk hgreeted
  | elapse d =>
      obtain rfl := Option.some.inj h
      exact .elapsed
  | other e =>
      rw [Shutdown.step, Option.ite_none_right_eq_some] at h
      obtain ⟨hallows, hmap⟩ := h
      obtain ⟨writers, hstep, rfl⟩ := Option.map_eq_some_iff.mp hmap
      exact .went hallows hstep

theorem Sound.step {e : ShutdownEvent} (hs : Sound s) (hfresh : s.fresh e = true)
    (h : s.step e = some t) : Sound t := by
  have hstill : Sound s := hs
  obtain ⟨hpaired, htracks, hidle, hcalled, honce, hgreeted⟩ := hstill
  cases did_of_step h with
  | passed hpause =>
      refine hs.startPass (hpause.elim (fun hstage => hidle fun _ _ => ?_) id) _
      rw [hstage]
      nofun
  | turned hx => exact hs.visit hx
  | expired htodo =>
      exact ⟨hpaired.still rfl rfl, htracks, fun _ => htodo, hcalled, honce, hgreeted⟩
  | notified hstage =>
      refine ⟨hpaired.still rfl rfl, htracks, fun hnot => hidle fun deadline signalled heq => ?_,
        hcalled, honce, hgreeted⟩
      exact hnot deadline true (hstage deadline signalled heq)
  | @published k session _ hk hnow =>
      refine ⟨hpaired.still rfl rfl, htracks, hidle, hcalled, honce, fun a ha => ?_⟩
      rcases List.mem_cons.mp ha with rfl | hold
      · refine ⟨hpaired.announced.numbered a session hk, fun session' hk' => ?_⟩
        exact Option.some.inj (hk.symm.trans hk') ▸ hnow
      · exact hgreeted a hold
  | elapsed => exact ⟨hpaired.still rfl rfl, htracks, hidle, hcalled, honce, hgreeted⟩
  | went hallows hstep => exact hs.other hfresh hallows hstep _

/-! ### Exactly one `Drain` -/

/-- A step as far as the calls go. -/
inductive Move (s : Shutdown) : ShutdownEvent → Shutdown → Prop
  | still {e u} (hseen : u.sweep.seen = s.sweep.seen) (hnoted : u.sweep.noted = s.sweep.noted)
      (hdrains : ∀ k, u.drains k = s.drains k) (hrefused : u.refused = s.refused) : Move s e u
  | passed {e u} (hsweep : u.sweep = s.sweep.start s.writers.hub.live)
      (hdrains : ∀ k, u.drains k = s.drains k) (hrefused : u.refused = s.refused) : Move s e u
  | turned {y u} (hy : y ∈ s.sweep.todo) (hsweep : u.sweep = s.sweep.call SessionRef.id y)
      (hturn : Turn s y u) : Move s (.visit y) u

theorem Sound.move {e : ShutdownEvent} (hs : Sound s) (h : s.step e = some t) : Move s e t := by
  cases did_of_step h with
  | passed => exact .passed rfl (fun _ => rfl) rfl
  | @turned x hx => exact .turned hx (s.visit_frame x).2.2 (hs.turn x)
  | expired | notified | published | elapsed => exact .still rfl rfl (fun _ => rfl) rfl
  | went hallows hstep => exact .still rfl rfl (hs.drains_other hallows hstep) rfl

/-- The call on `x` found no sender, and there is no other. -/
structure Lost (x : SessionRef) (s : Shutdown) : Prop where
  seen : x ∈ s.sweep.seen
  noted : x.id ∈ s.sweep.noted
  drains : s.drains x.context = 0

/-- A Session has one id and one context. -/
theorem Sound.eq_of_id (hs : Sound s) {y : SessionRef} (hx : x ∈ s.sweep.seen)
    (hy : y ∈ s.sweep.seen) (hid : x.id = y.id) : x = y :=
  SessionRef.ext hid ((hs.paired.paired x hx y hy).mp hid)

theorem Lost.step {e : ShutdownEvent} (hl : Lost x s) (hs : Sound s) (h : s.step e = some t) :
    Lost x t := by
  cases hs.move h with
  | still hseen hnoted hdrains =>
      exact ⟨hseen ▸ hl.seen, hnoted ▸ hl.noted, (hdrains _).trans hl.drains⟩
  | passed hsweep hdrains =>
      refine ⟨?_, ?_, (hdrains _).trans hl.drains⟩
      · rw [hsweep]
        exact List.mem_append_left _ hl.seen
      · rw [hsweep]
        exact hl.noted
  | @turned y _ hy hsweep hturn =>
      have hseen : x ∈ t.sweep.seen := by
        rw [hsweep]
        exact hl.seen
      have hnoted : x.id ∈ t.sweep.noted := by
        rw [hsweep]
        exact Sweep.mem_noted_call.mpr (.inr hl.noted)
      refine ⟨hseen, hnoted, ?_⟩
      cases hturn with
      | skipped _ hdrains => exact (hdrains _).trans hl.drains
      | missed _ _ hdrains => exact (hdrains _).trans hl.drains
      | sent hnew _ hdrains =>
          -- a turn that sends is on somebody else
          have hother : x.context ≠ y.context := fun heq =>
            hnew ((hs.paired.paired x hl.seen y (hs.tracks.todo y hy)).mpr heq ▸ hl.noted)
          rw [hdrains, if_neg fun h => hother h.1]
          exact hl.drains

/-- A turn that finds no sender loses its Session. -/
theorem lost_of_not_posted {e : ShutdownEvent} (hs : Sound s) (hposted : ¬ posted x s e = true)
    (h : s.step e = some t) : Lost x t := by
  cases e with
  | visit y =>
      have hnot : ¬ (y = x → x.id ∈ s.sweep.noted ∨ x.context ∈ s.published) := fun himp =>
        hposted (decide_eq_true himp)
      obtain ⟨rfl, hneither⟩ := Classical.not_imp.mp hnot
      obtain ⟨hnoted, hsender⟩ := not_or.mp hneither
      rw [Shutdown.step, Option.ite_none_right_eq_some] at h
      obtain ⟨hy, heq⟩ := h
      obtain rfl := Option.some.inj heq
      have hseen := hs.tracks.todo y hy
      obtain ⟨-, -, hsweep⟩ := s.visit_frame y
      refine ⟨?_, ?_, ?_⟩
      · rw [hsweep]
        exact hseen
      · rw [hsweep]
        exact Sweep.mem_noted_call.mpr (.inl rfl)
      · cases hs.turn y with
        | skipped hbefore => exact absurd hbefore hnoted
        | missed _ _ hdrains => exact (hdrains _).trans (hs.drains_eq_zero hseen hnoted)
        | sent _ hpublished => exact absurd hpublished hsender
  | _ => exact absurd rfl hposted

/-- Whoever has been called on has its `Drain`, or did not take it. -/
def Told (x : SessionRef) (s : Shutdown) : Prop :=
  x ∈ s.sweep.seen → x.id ∈ s.sweep.noted → s.drains x.context = 1 ∨ x.context ∈ s.refused

theorem Told.step {e : ShutdownEvent} (ht : Told x s) (hs : Sound s) (hposted : posted x s e = true)
    (h : s.step e = some t) : Told x t := by
  intro hseen hnoted
  cases hs.move h with
  | still hseen' hnoted' hdrains hrefused =>
      rw [hdrains, hrefused]
      exact ht (hseen' ▸ hseen) (hnoted' ▸ hnoted)
  | passed hsweep hdrains hrefused =>
      rw [hsweep] at hseen hnoted
      rw [hdrains, hrefused]
      refine ht ?_ hnoted
      rcases List.mem_append.mp hseen with hold | hlive
      · exact hold
      · -- its id was called on, so it was seen before
        obtain ⟨y, hy, hid⟩ := hs.tracks.noted x.id hnoted
        have hcontext := (hs.paired.entered y hy x.id x.context (Hub.mem_live hlive)).mp hid.symm
        exact SessionRef.ext hid.symm hcontext ▸ hy
  | @turned y _ hy hsweep hturn =>
      rw [hsweep] at hseen hnoted
      have hy' : y ∈ s.sweep.seen := hs.tracks.todo y hy
      have hx : x ∈ s.sweep.seen := hseen
      cases hturn with
      | skipped hbefore hdrains hrefused =>
          rw [hdrains, hrefused]
          refine ht hx ?_
          rcases Sweep.mem_noted_call.mp hnoted with hid | hold
          · exact hid ▸ hbefore
          · exact hold
      | missed hnew hsender hdrains hrefused =>
          rw [hdrains, hrefused]
          refine ht hx ?_
          rcases Sweep.mem_noted_call.mp hnoted with hid | hold
          · obtain rfl := hs.eq_of_id hx hy' hid
            rcases of_decide_eq_true hposted rfl with hbefore | hpublished
            · exact hbefore
            · exact absurd hpublished hsender
          · exact hold
      | sent hnew hsender hdrains hrefused =>
          rw [hdrains, hrefused]
          rcases Sweep.mem_noted_call.mp hnoted with hid | hold
          · obtain rfl := hs.eq_of_id hx hy' hid
            by_cases hroom : s.hasRoom x.context = true
            · rw [if_pos ⟨rfl, hroom⟩, hs.drains_eq_zero hx hnew]
              exact .inl rfl
            · rw [if_neg hroom]
              exact .inr List.mem_cons_self
          · have hother : x.context ≠ y.context := fun heq =>
              hnew ((hs.paired.paired x hx y hy').mpr heq ▸ hold)
            rw [if_neg fun h => hother h.1]
            refine (ht hx hold).imp id fun hmem => ?_
            split_ifs
            · exact hmem
            · exact List.mem_cons_of_mem _ hmem

/-- **The drain notifies a Session exactly if it finds its sender.**  Take any
run with fresh ids up to the end of the grace period, and a Session that was in
the registry at some pass, whose control loop has started before the grace
deadline, and which has never refused the `Drain` for want of room.  One `Drain`
has been put into its queue if and only if, when the drain called on it for the
first time, its control loop had published its sender. -/
theorem drain_notifies_iff (c : HubConfig) {es : List ShutdownEvent}
    (hfresh : AllSteps step (fun s e => s.fresh e = true) (init c) es)
    (hrun : exec step (init c) es = some s) (hexpired : s.stage = .expired) :
    ∀ x ∈ s.sweep.seen, x.context ∈ s.prompt → x.context ∉ s.refused →
      (s.drains x.context = 1 ↔
        AllSteps step (fun s e => posted x s e = true) (init c) es) := by
  intro x hx _ hrefused
  have hsound : ∀ s e t, Sound s → s.fresh e = true → s.step e = some t → Sound t :=
    fun s e t hs hfresh h => hs.step hfresh h
  constructor
  · intro hdrains
    rcases allSteps_or_spoilt hsound
      (fun s e t hs _ hposted h => lost_of_not_posted hs hposted h)
      (fun s e t hs _ hlost h => hlost.step hs h) (Sound.init c) hfresh hrun with hall | hlost
    · exact hall
    · cases hlost.drains.symm.trans hdrains
  · intro hposted
    have hboth : ∀ s e t, Sound s ∧ Told x s → s.fresh e = true ∧ posted x s e = true →
        s.step e = some t → Sound t ∧ Told x t :=
      fun s e t hs hcond h => ⟨hs.1.step hcond.1 h, hs.2.step hs.1 hcond.2 h⟩
    obtain ⟨hs, htold⟩ := exec_inv hboth ⟨Sound.init c, nofun⟩ (hfresh.and hposted) hrun
    have htodo := hs.idle fun _ _ h => by cases hexpired.symm.trans h
    exact (htold hx (hs.tracks.noted_of_seen htodo hx)).resolve_right hrefused

/-- A Session registers, the drain comes by, and only then `AuthOk` is written
and the control loop starts, long before the deadline. -/
def slowStart : List ShutdownEvent :=
  [.other (.other (.connect Hub.sampleId none legacyPeer)), .notify, .drain,
    .visit ⟨Hub.sampleId, 0⟩, .other (.other (.greet 0 .done)), .publish 0, .elapse (secs 1), .expire]

/-- The server after that run. -/
def afterSlowStart : Shutdown :=
  (exec step (init Hub.smallHub) slowStart).get (by decide +kernel)

/-- That Session is never told. -/
theorem slow_session_not_notified :
    (afterSlowStart.hasRoom 0 = true ∧ afterSlowStart.drains 0 = 0) ∧
    ¬ ∀ (c : HubConfig) (es : List ShutdownEvent) (s : Shutdown),
      AllSteps step (fun s e => s.fresh e = true) (init c) es →
      exec step (init c) es = some s → s.stage = .expired →
      ∀ x ∈ s.sweep.seen, x.context ∈ s.prompt → x.context ∉ s.refused →
        s.drains x.context = 1 := by
  refine ⟨by decide +kernel, fun h => ?_⟩
  have hone := h Hub.smallHub slowStart afterSlowStart (by decide +kernel)
    (Option.eq_some_of_isSome _) (by decide +kernel) ⟨Hub.sampleId, 0⟩ (by decide +kernel)
    (by decide +kernel) (by decide +kernel)
  exact absurd hone (by decide +kernel)

/-- The id of a late Session. -/
def lateId : SessionId := ⟨Vector.replicate 16 8⟩

/-- One Session runs when the drain begins; another one registers during its
first pass, and has started before the second. -/
def twoPasses : List ShutdownEvent :=
  [.other (.other (.connect Hub.sampleId none legacyPeer)), .notify,
    .other (.other (.greet 0 .done)), .publish 0, .drain,
    .other (.other (.connect lateId none legacyPeer)), .notify,
    .visit ⟨Hub.sampleId, 0⟩, .other (.other (.greet 1 .done)), .publish 1, .wake,
    .visit ⟨Hub.sampleId, 0⟩, .visit ⟨lateId, 1⟩, .elapse (secs 1), .expire]

/-- The server after that run. -/
def afterTwoPasses : Shutdown :=
  (exec step (init Hub.smallHub) twoPasses).get (by decide +kernel)

theorem drain_notifies_iff_two_passes :
    afterTwoPasses.drains 0 = 1 ∧ afterTwoPasses.drains 1 = 1 :=
  have hnotifies := drain_notifies_iff Hub.smallHub (s := afterTwoPasses) (by decide +kernel)
    (Option.eq_some_of_isSome _) (by decide +kernel)
  ⟨(hnotifies ⟨Hub.sampleId, 0⟩ (by decide +kernel) (by decide +kernel) (by decide +kernel)).mpr
      (by decide +kernel),
    (hnotifies ⟨lateId, 1⟩ (by decide +kernel) (by decide +kernel) (by decide +kernel)).mpr
      (by decide +kernel)⟩

end Shutdown

end Eggtunnel
