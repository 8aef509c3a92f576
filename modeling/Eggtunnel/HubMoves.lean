/-
Eggtunnel/HubMoves.lean

The steps of the server, branch by branch.

`Hub.Did` says of a step which handler ran; the handlers branch again, on what
they find behind a lock or in a queue.  `Hub.Took` has one constructor for each
of those branches, with the state it leaves written out, so that an invariant
of the server is one case analysis over what the source can do.
-/
import Eggtunnel.Hub

namespace Eggtunnel

namespace Hub

variable {s t : Hub}

/-! ### One step, with what it found -/

/-- The task of a `run_service`, with its Session. -/
def TaskAt (s : Hub) (r : RegistrationId) (task : ServiceTask) (session : ServerSession) : Prop :=
  s.tasks.lookup r = some task ∧ s.sessions.lookup task.context = some session

/-- A relay, with its Session. -/
def RelayAt (s : Hub) (x : ExternalId) (relay : RelayTask) (session : ServerSession) : Prop :=
  s.relays.lookup x = some relay ∧ s.sessions.lookup relay.context = some session

/-- What the step of an event did. -/
def Did (s t : Hub) : HubEvent → Prop
  | .connect id principal negotiated => t = s.connect id principal negotiated
  | .greet k o => ∃ session, s.sessions.lookup k = some session ∧ session.greeted = false ∧
      session.server.phase = .running ∧ t = s.greet k session o
  | .control k e => ∃ session server writes, s.sessions.lookup k = some session ∧
      session.greeted = true ∧ e.isBranch = true ∧
      (s.lent session).step e = some (server, writes) ∧
      t = ({ (s.branch k session e).1 with counters := server.counters }).conclude k
        { (s.branch k session e).2 with
          server, written := (s.branch k session e).2.written ++ writes } (breaks e server)
  | .contextDropped k => ∃ session, s.sessions.lookup k = some session ∧ s.held k = false ∧
      t = s.contextDropped k session
  | .accept r c => ∃ task session, s.TaskAt r task session ∧ task.state = .accepting ∧
      t = s.accept r task c
  | .insert r now => ∃ task session c, s.TaskAt r task session ∧ task.state = .admitted c ∧
      s.insert r task c session now = some t
  | .advertise r => ∃ task session c x, s.TaskAt r task session ∧
      task.state = .advertising c x ∧ t = s.advertise r task c x session
  | .rollBack r => ∃ task session c x, s.TaskAt r task session ∧
      task.state = .rollingBack c x ∧ t = s.rollBack r task c x session
  | .leave r => ∃ task session, s.TaskAt r task session ∧ task.state = .accepting ∧
      r ∈ s.cancelled ∧ t = s.setTask r task .leaving
  | .exit r => ∃ task session, s.TaskAt r task session ∧ task.state = .leaving ∧
      (∀ relay ∈ s.relays.values, relay.task ≠ r) ∧ t = s.exit r task session
  | .taskDropped r => ∃ task session, s.TaskAt r task session ∧
      (∀ c x, task.state ≠ .advertising c x) ∧
      ((∃ c x, task.state = .rollingBack c x ∧
        t = { s with inbox := s.inbox.erase x }.reap r task session) ∨
      (∀ c x, task.state ≠ .rollingBack c x) ∧ t = s.reap r task session)
  | .received x => ∃ relay session data, s.RelayAt x relay session ∧ relay.state = .waiting ∧
      s.inbox.lookup x = some data ∧ t = s.setRelay x relay (.decided (some data))
  | .gaveUp x => ∃ relay session, s.RelayAt x relay session ∧ relay.state = .waiting ∧
      t = s.setRelay x relay (.decided none)
  | .release x => ∃ relay session outcome, s.RelayAt x relay session ∧
      relay.state = .decided outcome ∧ t = s.release x relay outcome session
  | .relayDropped x => ∃ relay session, s.RelayAt x relay session ∧ t = s.endRelay x
  | .dataHello hello principal => t = s.dataHello hello principal
  | .resolve d now => ∃ task session, s.hellos.lookup d = some task ∧
      s.sessions.lookup task.context = some session ∧ t = s.resolve d task session now
  | .helloDropped d => t = { s with hellos := s.hellos.erase d }

theorem onTask_eq_some {r : RegistrationId} {act : ServiceTask → ServerSession → Option Hub}
    (h : s.onTask r act = some t) :
    ∃ task session, s.TaskAt r task session ∧ act task session = some t := by
  obtain ⟨task, htask, h⟩ := Option.bind_eq_some_iff.mp h
  obtain ⟨session, hsession, h⟩ := Option.bind_eq_some_iff.mp h
  exact ⟨task, session, ⟨htask, hsession⟩, h⟩

theorem onRelay_eq_some {x : ExternalId} {act : RelayTask → ServerSession → Option Hub}
    (h : s.onRelay x act = some t) :
    ∃ relay session, s.RelayAt x relay session ∧ act relay session = some t := by
  obtain ⟨relay, hrelay, h⟩ := Option.bind_eq_some_iff.mp h
  obtain ⟨session, hsession, h⟩ := Option.bind_eq_some_iff.mp h
  exact ⟨relay, session, ⟨hrelay, hsession⟩, h⟩

/-- **Inversion of the step function.** -/
theorem did_of_step {e : HubEvent} (h : s.step e = some t) : s.Did t e := by
  cases e with
  | connect id principal negotiated => exact (Option.some.inj h).symm
  | greet k o =>
      obtain ⟨session, hk, h⟩ := Option.bind_eq_some_iff.mp h
      split_ifs at h with hguard
      exact ⟨session, hk, hguard.1, hguard.2, (Option.some.inj h).symm⟩
  | control k e =>
      obtain ⟨session, hk, h⟩ := Option.bind_eq_some_iff.mp h
      split_ifs at h with hguard
      obtain ⟨⟨server, writes⟩, hstep, rfl⟩ := Option.map_eq_some_iff.mp h
      exact ⟨session, server, writes, hk, hguard.1, hguard.2, hstep, rfl⟩
  | contextDropped k =>
      obtain ⟨session, hk, h⟩ := Option.bind_eq_some_iff.mp h
      split_ifs at h with hheld
      exact ⟨session, hk, by simpa using hheld, (Option.some.inj h).symm⟩
  | accept r c =>
      obtain ⟨task, session, hat, h⟩ := onTask_eq_some h
      split_ifs at h with hstate
      exact ⟨task, session, hat, hstate, (Option.some.inj h).symm⟩
  | insert r now =>
      obtain ⟨task, session, hat, h⟩ := onTask_eq_some h
      split at h
      · rename_i c hstate
        exact ⟨task, session, c, hat, hstate, h⟩
      · cases h
  | advertise r =>
      obtain ⟨task, session, hat, h⟩ := onTask_eq_some h
      split at h
      · rename_i c x hstate
        exact ⟨task, session, c, x, hat, hstate, (Option.some.inj h).symm⟩
      · cases h
  | rollBack r =>
      obtain ⟨task, session, hat, h⟩ := onTask_eq_some h
      split at h
      · rename_i c x hstate
        exact ⟨task, session, c, x, hat, hstate, (Option.some.inj h).symm⟩
      · cases h
  | leave r =>
      obtain ⟨task, session, hat, h⟩ := onTask_eq_some h
      split_ifs at h with hguard
      exact ⟨task, session, hat, hguard.1, hguard.2, (Option.some.inj h).symm⟩
  | exit r =>
      obtain ⟨task, session, hat, h⟩ := onTask_eq_some h
      split_ifs at h with hguard
      exact ⟨task, session, hat, hguard.1, by simpa using hguard.2, (Option.some.inj h).symm⟩
  | taskDropped r =>
      obtain ⟨task, session, hat, h⟩ := onTask_eq_some h
      split at h
      · cases h
      · rename_i c x hstate
        exact ⟨task, session, hat, by simp [hstate], .inl ⟨c, x, hstate, (Option.some.inj h).symm⟩⟩
      · rename_i hne hne'
        exact ⟨task, session, hat, hne, .inr ⟨hne', (Option.some.inj h).symm⟩⟩
  | received x =>
      obtain ⟨relay, session, hat, h⟩ := onRelay_eq_some h
      split at h
      · rename_i data hstate hdata
        exact ⟨relay, session, data, hat, hstate, hdata, (Option.some.inj h).symm⟩
      · cases h
  | gaveUp x =>
      obtain ⟨relay, session, hat, h⟩ := onRelay_eq_some h
      split_ifs at h with hstate
      exact ⟨relay, session, hat, hstate, (Option.some.inj h).symm⟩
  | release x =>
      obtain ⟨relay, session, hat, h⟩ := onRelay_eq_some h
      split at h
      · rename_i outcome hstate
        exact ⟨relay, session, outcome, hat, hstate, (Option.some.inj h).symm⟩
      · cases h
  | relayDropped x =>
      obtain ⟨relay, session, hat, h⟩ := onRelay_eq_some h
      exact ⟨relay, session, hat, (Option.some.inj h).symm⟩
  | dataHello hello principal => exact (Option.some.inj h).symm
  | resolve d now =>
      obtain ⟨task, htask, h⟩ := Option.bind_eq_some_iff.mp h
      obtain ⟨session, hsession, rfl⟩ := Option.map_eq_some_iff.mp h
      exact ⟨task, session, htask, hsession, rfl⟩
  | helloDropped d =>
      obtain ⟨task, -, rfl⟩ := Option.map_eq_some_iff.mp h
      exact rfl

/-! ### One step, branch by branch -/

/-- The lookup of a `DataHello` succeeds: the registry has a live Session under
its id, and the principals agree. -/
def Finds (s : Hub) (task : HelloTask) : Prop :=
  s.registry.lookup task.hello.sessionId = some task.context ∧ s.held task.context = true ∧
    ∃ session, s.sessions.lookup task.context = some session ∧ session.principal = task.principal

/-- The lookup adds a data connection, or leaves everything but the record of
its refusal. -/
theorem dataHello_cases (s : Hub) (hello : DataHello) (principal : Principal) :
    (∃ k, s.Finds ⟨k, hello, principal⟩ ∧
      s.dataHello hello principal = { s with
        next := s.next + 1
        hellos := s.hellos.insert s.next ⟨k, hello, principal⟩ }) ∨
    ((∀ k, ¬ s.Finds ⟨k, hello, principal⟩) ∧
      s.dataHello hello principal
        = ({ s with next := s.next + 1 }.reject.answerHello s.next (.error .authentication))) := by
  have hheld : ({ s with next := s.next + 1 } : Hub).held = s.held := rfl
  unfold dataHello
  dsimp only
  rw [hheld]
  split
  · rename_i hnone
    refine .inr ⟨?_, rfl⟩
    rintro k ⟨hreg, hk, -⟩
    dsimp only at hreg hk
    rw [hreg, Option.filter_some, hk] at hnone
    cases hnone
  · rename_i k hsome
    obtain ⟨hreg, hk⟩ := Option.filter_eq_some_iff.mp hsome
    -- the registry decides which context it can be
    have honly {k' : ContextId} (h : s.Finds ⟨k', hello, principal⟩) : k' = k := by
      have hreg' := h.1
      dsimp only at hreg'
      rw [hreg] at hreg'
      exact (Option.some.inj hreg').symm
    split
    · rename_i hnone
      refine .inr ⟨fun k' h => ?_, rfl⟩
      obtain rfl := honly h
      obtain ⟨-, -, session, hsession, -⟩ := h
      cases hnone.symm.trans hsession
    · rename_i session hsession
      split_ifs with hprincipal
      · refine .inr ⟨fun k' h => ?_, rfl⟩
        obtain rfl := honly h
        obtain ⟨-, -, session', hsession', heq⟩ := h
        obtain rfl := Option.some.inj (hsession.symm.trans hsession')
        exact hprincipal heq
      · exact .inl ⟨k, ⟨hreg, hk, session, hsession, not_not.mp hprincipal⟩, rfl⟩

/-- The entry of a connection is taken out of the pending map of its Session. -/
def claimed (s : Hub) (k : ContextId) (session : ServerSession) (c : ConnectionId) : Hub :=
  s.setPending k session ((claimPending session.pending s.gauges.pending c).1,
    (claimPending session.pending s.gauges.pending c).2.1)

/-- What a step was, one constructor for each branch. -/
inductive Took (s : Hub) : HubEvent → Hub → Prop
  | turnedAway {id principal negotiated} :
      Took s (.connect id principal negotiated)
        { s with
          registry := s.registry.retain fun _ k => s.held k
          sessionIds := id :: s.sessionIds }.recordSaturation
  | connected {id principal negotiated}
      (hroom : (s.registry.retain fun _ k => s.held k).size < s.policy.limits.sessions) :
      Took s (.connect id principal negotiated)
        { s with
          registry := (s.registry.retain fun _ k => s.held k).insert id s.next
          sessionIds := id :: s.sessionIds
          sessions := s.sessions.insert s.next
            ⟨principal, s.newServer id negotiated, false, ∅, ∅, [], []⟩
          counters := { s.counters with sessions := fetchAdd s.counters.sessions 1 }
          gauges := { s.gauges with
            highWaterSessions :=
              max s.gauges.highWaterSessions (fetchAdd s.counters.sessions 1) }
          next := s.next + 1 }
  | greeted {k o session} (hk : s.sessions.lookup k = some session)
      (hbefore : session.greeted = false) (hrun : session.server.phase = .running)
      (hdone : o = .done) :
      Took s (.greet k o)
        { s with
          sessions := s.sessions.insert k { session with
            written := session.written ++ [(Message.authOk ⟨session.server.sessionId⟩, o)]
            greeted := true } }
  | unreached {k o session error} (hk : s.sessions.lookup k = some session)
      (hbefore : session.greeted = false) (hrun : session.server.phase = .running) :
      Took s (.greet k o)
        ({ s with counters := ((s.lent session).finish (.error error)).counters }.conclude k
          { session with
            written := session.written ++ [(Message.authOk ⟨session.server.sessionId⟩, o)]
            server := (s.lent session).finish (.error error) } false)
  | controlled {k e session server writes} (hk : s.sessions.lookup k = some session)
      (hgreeted : session.greeted = true) (hbranch : e.isBranch = true)
      (hstep : (s.lent session).step e = some (server, writes)) :
      Took s (.control k e)
        ({ (s.branch k session e).1 with counters := server.counters }.conclude k
          { (s.branch k session e).2 with
            server, written := (s.branch k session e).2.written ++ writes } (breaks e server))
  | contextDropped {k session} (hk : s.sessions.lookup k = some session)
      (hfree : s.held k = false) : Took s (.contextDropped k) (s.contextDropped k session)
  | saturated {r c task session} (hat : s.TaskAt r task session)
      (hstate : task.state = .accepting) : Took s (.accept r c) s.recordSaturation
  | admitted {r c task session} (hat : s.TaskAt r task session)
      (hstate : task.state = .accepting)
      (hroom : s.permitsTaken task.context < s.policy.limits.activeConnectionsPerSession) :
      Took s (.accept r (some c))
        ({ s with generated := c :: s.generated }.setTask r task (.admitted c))
  | unidentified {r task session} (hat : s.TaskAt r task session)
      (hstate : task.state = .accepting) : Took s (.accept r none) s.reject
  | full {r now task session c} (hat : s.TaskAt r task session)
      (hstate : task.state = .admitted c) :
      Took s (.insert r now) (s.recordSaturation.setTask r task .accepting)
  | inserted {r now task session c} (hat : s.TaskAt r task session)
      (hstate : task.state = .admitted c)
      (hroom : session.pending.size < s.policy.limits.pendingPerSession)
      (hword : s.pendingTotal + 1 < usizeValues) :
      Took s (.insert r now)
        (({ s with
          gauges := { s.gauges with
            highWaterPending := max s.gauges.highWaterPending (fetchAdd s.gauges.pending 1) }
          next := s.next + 1
          issued := ⟨c, task.context, r, s.next⟩ :: s.issued }.setPending task.context session
            (session.pending.insert c
              ⟨task.serviceId, now + s.policy.timeouts.pendingConnection, s.next⟩,
              fetchAdd s.gauges.pending 1)).setTask r task (.advertising c s.next))
  | advertised {r task session c x} (hat : s.TaskAt r task session)
      (hstate : task.state = .advertising c x) (hrun : session.server.phase = .running)
      (hroom : session.server.queue.length < s.policy.limits.controlQueue) :
      Took s (.advertise r)
        ({ s with
          sessions := s.sessions.insert task.context { session with
            server := session.server.trySend (.open ⟨task.serviceId, c⟩) }
          relays := s.relays.insert x ⟨task.context, r, c, .waiting⟩
          gauges := { s.gauges with
            activeConnections := fetchAdd s.gauges.activeConnections 1
            highWaterActiveConnections := max s.gauges.highWaterActiveConnections
              (fetchAdd s.gauges.activeConnections 1) } }.setTask r task .accepting)
  | unadvertised {r task session c x} (hat : s.TaskAt r task session)
      (hstate : task.state = .advertising c x)
      (hclosed : ¬ (session.server.phase = .running ∧
        session.server.queue.length < s.policy.limits.controlQueue)) :
      Took s (.advertise r) (s.setTask r task (.rollingBack c x))
  | rolledBack {r task session c x} (hat : s.TaskAt r task session)
      (hstate : task.state = .rollingBack c x) :
      Took s (.rollBack r)
        (({ s with inbox := s.inbox.erase x }.reject.claimed task.context session c).setTask r task
          .accepting)
  | left {r task session} (hat : s.TaskAt r task session) (hstate : task.state = .accepting)
      (hcancelled : r ∈ s.cancelled) : Took s (.leave r) (s.setTask r task .leaving)
  | exited {r task session} (hat : s.TaskAt r task session) (hstate : task.state = .leaving)
      (hrelays : ∀ relay ∈ s.relays.values, relay.task ≠ r) :
      Took s (.exit r) (s.exit r task session)
  | abortedRollingBack {r task session c x} (hat : s.TaskAt r task session)
      (hstate : task.state = .rollingBack c x) :
      Took s (.taskDropped r) ({ s with inbox := s.inbox.erase x }.reap r task session)
  | aborted {r task session} (hat : s.TaskAt r task session)
      (hadvertising : ∀ c x, task.state ≠ .advertising c x)
      (hrolling : ∀ c x, task.state ≠ .rollingBack c x) :
      Took s (.taskDropped r) (s.reap r task session)
  | received {x relay session data} (hat : s.RelayAt x relay session)
      (hstate : relay.state = .waiting) (hdata : s.inbox.lookup x = some data) :
      Took s (.received x) (s.setRelay x relay (.decided (some data)))
  | gaveUp {x relay session} (hat : s.RelayAt x relay session) (hstate : relay.state = .waiting) :
      Took s (.gaveUp x) (s.setRelay x relay (.decided none))
  | relaying {x relay session data} (hat : s.RelayAt x relay session)
      (hstate : relay.state = .decided (some data)) :
      Took s (.release x)
        ((s.claimed relay.context session relay.connection).setRelay x relay (.relaying data))
  | ended {x relay session} (hat : s.RelayAt x relay session)
      (hstate : relay.state = .decided none) :
      Took s (.release x) ((s.claimed relay.context session relay.connection).endRelay x)
  | relayDropped {x relay session} (hat : s.RelayAt x relay session) :
      Took s (.relayDropped x) (s.endRelay x)
  | found {hello principal k} (hfinds : s.Finds ⟨k, hello, principal⟩) :
      Took s (.dataHello hello principal)
        { s with
          next := s.next + 1
          hellos := s.hellos.insert s.next ⟨k, hello, principal⟩ }
  | notFound {hello principal} (hnone : ∀ k, ¬ s.Finds ⟨k, hello, principal⟩) :
      Took s (.dataHello hello principal)
        ({ s with next := s.next + 1 }.reject.answerHello s.next (.error .authentication))
  | unknown {d now task session} (hd : s.hellos.lookup d = some task)
      (hk : s.sessions.lookup task.context = some session)
      (hnone : session.pending.lookup task.hello.connectionId = none) :
      Took s (.resolve d now)
        ((s.claimed task.context session task.hello.connectionId).reject.answerHello d
          (.error .authorization))
  | mismatched {d now task session entry} (hd : s.hellos.lookup d = some task)
      (hk : s.sessions.lookup task.context = some session)
      (hentry : session.pending.lookup task.hello.connectionId = some entry)
      (hbad : entry.serviceId ≠ task.hello.serviceId ∨ entry.expires ≤ now) :
      Took s (.resolve d now)
        ((s.claimed task.context session task.hello.connectionId).reject.answerHello d
          (.error .authorization))
  | delivered {d now task session entry} (hd : s.hellos.lookup d = some task)
      (hk : s.sessions.lookup task.context = some session)
      (hentry : session.pending.lookup task.hello.connectionId = some entry)
      (hservice : entry.serviceId = task.hello.serviceId) (hnow : now < entry.expires)
      (hreceiving : s.receiving entry.dataTx = true) :
      Took s (.resolve d now)
        ({ s.claimed task.context session task.hello.connectionId with
          inbox := s.inbox.insert entry.dataTx d
          deliveries := ⟨task, entry.dataTx, d⟩ :: s.deliveries }.answerHello d (.ok ()))
  | late {d now task session entry} (hd : s.hellos.lookup d = some task)
      (hk : s.sessions.lookup task.context = some session)
      (hentry : session.pending.lookup task.hello.connectionId = some entry)
      (hgone : s.receiving entry.dataTx = false) :
      Took s (.resolve d now)
        ((s.claimed task.context session task.hello.connectionId).answerHello d
          (.error .cancelled))
  | helloDropped {d task} (hd : s.hellos.lookup d = some task) :
      Took s (.helloDropped d) { s with hellos := s.hellos.erase d }

/-! ### Inversion -/

theorem took_connect (s : Hub) (id : SessionId) (principal : Principal)
    (negotiated : Capabilities) :
    Took s (.connect id principal negotiated) (s.connect id principal negotiated) := by
  unfold connect
  dsimp only
  split_ifs with hfull
  · exact .turnedAway
  · exact .connected (Nat.not_le.mp hfull)

theorem took_greet {k : ContextId} {session : ServerSession} {o : WriteOutcome}
    (hk : s.sessions.lookup k = some session) (hbefore : session.greeted = false)
    (hrun : session.server.phase = .running) : Took s (.greet k o) (s.greet k session o) := by
  unfold greet
  dsimp only
  split
  · rename_i hok
    exact .greeted hk hbefore hrun (writeBudgeted_eq_ok hok)
  · exact .unreached hk hbefore hrun

theorem took_accept {r : RegistrationId} {task : ServiceTask} {session : ServerSession}
    (hat : s.TaskAt r task session) (hstate : task.state = .accepting) (c : Option ConnectionId) :
    Took s (.accept r c) (s.accept r task c) := by
  unfold accept
  split_ifs with hroom
  · cases c with
    | some c => exact .admitted hat hstate hroom
    | none => exact .unidentified hat hstate
  · exact .saturated hat hstate

theorem took_insert {r : RegistrationId} {task : ServiceTask} {session : ServerSession}
    {c : ConnectionId} {now : Instant} (hat : s.TaskAt r task session)
    (hstate : task.state = .admitted c) (h : s.insert r task c session now = some t) :
    Took s (.insert r now) t := by
  unfold insert at h
  split_ifs at h with hfull hword
  · cases h
    exact .full hat hstate
  · cases h
    exact .inserted hat hstate (Nat.not_le.mp hfull) hword

theorem took_advertise {r : RegistrationId} {task : ServiceTask} {session : ServerSession}
    {c : ConnectionId} {x : ExternalId} (hat : s.TaskAt r task session)
    (hstate : task.state = .advertising c x) :
    Took s (.advertise r) (s.advertise r task c x session) := by
  unfold advertise
  split_ifs with hroom
  · exact .advertised hat hstate hroom.1 hroom.2
  · exact .unadvertised hat hstate hroom

theorem took_release {x : ExternalId} {relay : RelayTask} {session : ServerSession}
    {outcome : Option StreamId} (hat : s.RelayAt x relay session)
    (hstate : relay.state = .decided outcome) :
    Took s (.release x) (s.release x relay outcome session) := by
  cases outcome with
  | some data => exact .relaying hat hstate
  | none => exact .ended hat hstate

/-- The entry that a claim takes out is the one that was there. -/
theorem claimPending_entry (pending : PendingMap) (gauge : Nat) (c : ConnectionId) :
    (claimPending pending gauge c).2.2 = pending.lookup c := by
  unfold claimPending
  split
  · rename_i hsome
    exact hsome.symm
  · rename_i hnone
    exact hnone.symm

theorem took_resolve {d : StreamId} {now : Instant} {task : HelloTask}
    {session : ServerSession} (hd : s.hellos.lookup d = some task)
    (hk : s.sessions.lookup task.context = some session) :
    Took s (.resolve d now) (s.resolve d task session now) := by
  have hentry := claimPending_entry session.pending s.gauges.pending task.hello.connectionId
  unfold resolve
  dsimp only
  split
  · rename_i hnone
    exact .unknown hd hk (hentry.symm.trans hnone)
  · rename_i entry hsome
    have hthis := hentry.symm.trans hsome
    split_ifs with hbad hreceiving
    · exact .mismatched hd hk hthis hbad
    · obtain ⟨hservice, hnow⟩ := not_or.mp hbad
      exact .delivered hd hk hthis (not_not.mp hservice) (Nat.not_le.mp hnow) hreceiving
    · exact .late hd hk hthis (Bool.eq_false_iff.mpr hreceiving)

/-- **Every step took one of the branches.** -/
theorem took_of_step {e : HubEvent} (h : s.step e = some t) : Took s e t := by
  cases e with
  | helloDropped d =>
      obtain ⟨task, hd, rfl⟩ := Option.map_eq_some_iff.mp h
      exact .helloDropped hd
  | connect id principal negotiated =>
      obtain rfl := did_of_step h
      exact took_connect s id principal negotiated
  | greet k o =>
      obtain ⟨session, hk, hbefore, hrun, rfl⟩ := did_of_step h
      exact took_greet hk hbefore hrun
  | control k e =>
      obtain ⟨session, server, writes, hk, hgreeted, hbranch, hstep, rfl⟩ := did_of_step h
      exact .controlled hk hgreeted hbranch hstep
  | contextDropped k =>
      obtain ⟨session, hk, hheld, rfl⟩ := did_of_step h
      exact .contextDropped hk hheld
  | accept r c =>
      obtain ⟨task, session, hat, hstate, rfl⟩ := did_of_step h
      exact took_accept hat hstate c
  | insert r now =>
      obtain ⟨task, session, c, hat, hstate, hinsert⟩ := did_of_step h
      exact took_insert hat hstate hinsert
  | advertise r =>
      obtain ⟨task, session, c, x, hat, hstate, rfl⟩ := did_of_step h
      exact took_advertise hat hstate
  | rollBack r =>
      obtain ⟨task, session, c, x, hat, hstate, rfl⟩ := did_of_step h
      exact .rolledBack hat hstate
  | leave r =>
      obtain ⟨task, session, hat, hstate, hcancelled, rfl⟩ := did_of_step h
      exact .left hat hstate hcancelled
  | exit r =>
      obtain ⟨task, session, hat, hstate, hrelays, rfl⟩ := did_of_step h
      exact .exited hat hstate hrelays
  | taskDropped r =>
      obtain ⟨task, session, hat, hadvertising, ⟨c, x, hstate, rfl⟩ | ⟨hrolling, rfl⟩⟩ :=
        did_of_step h
      · exact .abortedRollingBack hat hstate
      · exact .aborted hat hadvertising hrolling
  | received x =>
      obtain ⟨relay, session, data, hat, hstate, hdata, rfl⟩ := did_of_step h
      exact .received hat hstate hdata
  | gaveUp x =>
      obtain ⟨relay, session, hat, hstate, rfl⟩ := did_of_step h
      exact .gaveUp hat hstate
  | release x =>
      obtain ⟨relay, session, outcome, hat, hstate, rfl⟩ := did_of_step h
      exact took_release hat hstate
  | relayDropped x =>
      obtain ⟨relay, session, hat, rfl⟩ := did_of_step h
      exact .relayDropped hat
  | dataHello hello principal =>
      obtain rfl := did_of_step h
      rcases s.dataHello_cases hello principal with ⟨k, hfinds, heq⟩ | ⟨hnone, heq⟩
      · rw [heq]
        exact .found hfinds
      · rw [heq]
        exact .notFound hnone
  | resolve d now =>
      obtain ⟨task, session, hd, hk, rfl⟩ := did_of_step h
      exact took_resolve hd hk

/-! ### Frames -/

/-- A branch of the control loop reaches the tasks, their tokens and the
pending map of its Session, and nothing else. -/
theorem branch_frame (s : Hub) (k : ContextId) (session : ServerSession) (e : ServerEvent) :
    (s.branch k session e).1 =
      { s with
        tasks := (s.branch k session e).1.tasks
        next := (s.branch k session e).1.next
        cancelled := (s.branch k session e).1.cancelled
        gauges := { s.gauges with pending := (s.branch k session e).1.gauges.pending } } ∧
    (s.branch k session e).2 =
      { session with
        pending := (s.branch k session e).2.pending
        tokens := (s.branch k session e).2.tokens
        served := (s.branch k session e).2.served } := by
  unfold branch
  split
  · split <;> exact ⟨rfl, rfl⟩
  · split <;> exact ⟨rfl, rfl⟩
  · exact ⟨rfl, rfl⟩
  · exact ⟨rfl, rfl⟩

/-- A branch spawns at most one task, for a registration that is accepted. -/
theorem branch_tasks (s : Hub) (k : ContextId) (session : ServerSession) (e : ServerEvent) :
    ((s.branch k session e).1.tasks = s.tasks ∧ (s.branch k session e).1.next = s.next) ∨
    ∃ register os o, e = .incoming (.registerService register) os o ∧
      (s.branch k session e).1.tasks
        = s.tasks.insert s.next ⟨k, register.serviceId, .accepting⟩ ∧
      (s.branch k session e).2.tokens = session.tokens.insert register.serviceId s.next ∧
      (s.branch k session e).1.next = s.next + 1 ∧
      ∃ u bind, (s.lent session).registerService register os = (u, .accepted bind) := by
  unfold branch
  split
  · rename_i register os o
    split
    · rename_i u bind hverdict
      exact .inr ⟨register, os, o, rfl, rfl, rfl, rfl, u, bind, hverdict⟩
    · exact .inl ⟨rfl, rfl⟩
  · split <;> exact .inl ⟨rfl, rfl⟩
  · exact .inl ⟨rfl, rfl⟩
  · exact .inl ⟨rfl, rfl⟩

/-- The end of a branch puts the Session back, with its pending map as it was
or empty. -/
theorem conclude_frame (s : Hub) (k : ContextId) (session : ServerSession) (b : Bool) :
    ∃ r : PendingMap × Nat,
      (r = (session.pending, s.gauges.pending) ∨
        b = true ∧ session.server.phase ≠ .running ∧
          r = removeAllPending session.pending s.gauges.pending) ∧
      s.conclude k session b =
        { s with
          sessions := s.sessions.insert k { session with pending := r.1 }
          gauges := { s.gauges with pending := r.2 }
          registry := (s.conclude k session b).registry
          cancelled := (s.conclude k session b).cancelled } := by
  unfold conclude
  split
  · exact ⟨_, .inl rfl, rfl⟩
  · rename_i result hphase
    cases b with
    | true => exact ⟨_, .inr ⟨rfl, by simp [hphase], rfl⟩, rfl⟩
    | false => exact ⟨_, .inl rfl, rfl⟩

theorem registry_conclude (s : Hub) (k : ContextId) (session : ServerSession) (b : Bool) :
    (s.conclude k session b).registry
      = if session.server.phase = .running then s.registry
        else s.registry.erase session.server.sessionId := by
  unfold conclude
  rcases session.server.phase with - | result
  · rfl
  · cases b <;> rfl

/-- A control loop moves its own Session, the tasks and tokens, the registry
and the shared counters. -/
theorem controlled_frame (s : Hub) (k : ContextId) (session : ServerSession) (e : ServerEvent)
    (server : Server) (writes : List Write) (b : Bool) :
    ∃ cancelled registry gauge pending tokens served,
      { (s.branch k session e).1 with counters := server.counters }.conclude k
        { (s.branch k session e).2 with
          server, written := (s.branch k session e).2.written ++ writes } b
      = { s with
          cancelled, registry
          tasks := (s.branch k session e).1.tasks
          next := (s.branch k session e).1.next
          counters := server.counters
          gauges := { s.gauges with pending := gauge }
          sessions := s.sessions.insert k { session with
            server, pending, tokens, served, written := session.written ++ writes } } := by
  obtain ⟨hs, hsession⟩ := s.branch_frame k session e
  generalize (s.branch k session e).1 = u at hs ⊢
  generalize (s.branch k session e).2 = v at hsession ⊢
  rw [hs, hsession]
  unfold conclude
  split
  · exact ⟨_, _, _, _, _, _, rfl⟩
  · cases b with
    | true => exact ⟨_, _, _, _, _, _, rfl⟩
    | false => exact ⟨_, _, _, _, _, _, rfl⟩

/-- The same of a Session whose `AuthOk` could not be written; it has no tasks
yet. -/
theorem unreached_frame (s : Hub) (k : ContextId) (session : ServerSession) (server : Server)
    (written : List Write) :
    ∃ cancelled registry,
      { s with counters := server.counters }.conclude k { session with server, written } false
      = { s with
          cancelled, registry
          counters := server.counters
          sessions := s.sessions.insert k { session with server, written } } := by
  unfold conclude
  split
  · exact ⟨_, _, rfl⟩
  · exact ⟨_, _, rfl⟩

end Hub

end Eggtunnel
