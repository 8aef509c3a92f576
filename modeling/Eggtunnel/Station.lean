/-
Eggtunnel/Station.lean

The server with its accept loop, and the high-water marks of its gauges.

A registration is taken in its two halves (`Writers`), so that a state in
between shows the gauge that has just been raised.  Each half is a branch of the
control loop as far as the gauges go, up to what the Session is recorded to have
written (`Hub.Rewrites`).
-/
import Eggtunnel.AckOrder
import Eggtunnel.Tide

namespace Eggtunnel

/-- The gauges that have a high-water mark. -/
inductive Gauge
  | sessions | services | pending | activeConnections | openTasks | handshakes
  deriving DecidableEq, Repr

/-! ### Hubs up to what was written -/

namespace Hub

variable {s t : Hub} {c : HubConfig} {k : ContextId}

/-- The same, but for what a Session is recorded to have written. -/
def Rewrites (s t : Hub) : Prop :=
  ∃ k session written, s.sessions.lookup k = some session ∧
    t = { s with sessions := s.sessions.insert k { session with written := written } }

theorem Rewrites.forward (h : Rewrites s t) {session : ServerSession}
    (hk : s.sessions.lookup k = some session) :
    ∃ written, t.sessions.lookup k = some { session with written := written } := by
  obtain ⟨a, other, written, ha, rfl⟩ := h
  rw [Table.lookup_insert_eq]
  split_ifs with hka
  · obtain rfl := Option.some.inj (ha.symm.trans (hka ▸ hk))
    exact ⟨written, rfl⟩
  · exact ⟨session.written, hk⟩

theorem Rewrites.backward (h : Rewrites s t) {session' : ServerSession}
    (hk : t.sessions.lookup k = some session') :
    ∃ session written, s.sessions.lookup k = some session ∧
      session' = { session with written := written } := by
  obtain ⟨a, other, written, ha, rfl⟩ := h
  rw [Table.lookup_insert_eq] at hk
  split_ifs at hk with hka
  · exact ⟨other, written, hka ▸ ha, (Option.some.inj hk).symm⟩
  · exact ⟨session', session'.written, hk, rfl⟩

theorem Registered.rewrites (hs : Registered s) (h : Rewrites s t)
    (hregistry : t.registry = s.registry) (hids : t.sessionIds = s.sessionIds) :
    Registered t where
  running id a ha := by
    rw [hregistry] at ha
    obtain ⟨session, hk, hid, hrun⟩ := hs.running id a ha
    obtain ⟨written, hk'⟩ := h.forward hk
    exact ⟨_, hk', hid, hrun⟩
  live a session' hk' hrun := by
    obtain ⟨session, written, hk, rfl⟩ := h.backward hk'
    rw [hregistry]
    exact hs.live a session hk hrun
  ids a session' hk' := by
    obtain ⟨session, written, hk, rfl⟩ := h.backward hk'
    rw [hids]
    exact hs.ids a session hk

theorem serviceKeys_of_rewrites (h : Rewrites s t) (hregistry : t.registry = s.registry) :
    t.serviceKeys = s.serviceKeys := by
  funext id
  rw [serviceKeys, serviceKeys, hregistry]
  rcases hreg : s.registry.lookup id with - | a
  · rfl
  · rw [Option.bind_some, Option.bind_some]
    rcases hk : s.sessions.lookup a with - | session
    · rcases hk' : t.sessions.lookup a with - | session'
      · rfl
      · obtain ⟨session, written, hk'', -⟩ := h.backward hk'
        cases hk.symm.trans hk''
    · obtain ⟨written, hk'⟩ := h.forward hk
      rw [hk']
      rfl

theorem Tabled.rewrites (hs : Tabled c s) (h : Rewrites s t) : Tabled c t := by
  have hback := h
  obtain ⟨a, other, written, ha, rfl⟩ := h
  refine ⟨hs.policy, hs.bindPolicy, fun k session' hk' => ?_, hs.registered.rewrites hback rfl rfl,
    fun k session' hk' => ?_, hs.shared.of_eq (serviceKeys_of_rewrites hback rfl) rfl rfl rfl rfl⟩
  · obtain ⟨session, written', hk, -⟩ := hback.backward hk'
    exact hs.numbered k session hk
  · obtain ⟨session, written', hk, rfl⟩ := hback.backward hk'
    have htidy := hs.tidy k session hk
    exact ⟨htidy.policy, htidy.bindPolicy, htidy.named, htidy.tokens⟩

theorem Reconciled.rewrites (hs : Reconciled c s) (h : Rewrites s t) : Reconciled c t := by
  have hback := h
  obtain ⟨a, other, written, ha, ht⟩ := h
  refine ⟨by rw [ht]; exact hs.policy, fun k session' hk' => ?_, ?_⟩
  · obtain ⟨session, written', hk, -⟩ := hback.backward hk'
    rw [ht]
    exact hs.numbered k session hk
  · have hsessions : t.sessions = s.sessions.insert a { other with written := written } := by
      rw [ht]
    exact (hs.balanced.shrink (shrinks_of_kept hs.word ha hsessions rfl (by rw [ht]))).1

/-- A branch of a control loop that is at its `select!` can be taken. -/
theorem step_control {ev : ServerEvent} {session : ServerSession} {server : Server}
    {writes : List Write} (hk : s.sessions.lookup k = some session)
    (hgreeted : session.greeted = true) (hbranch : ev.isBranch = true)
    (hstep : (s.lent session).step ev = some (server, writes)) :
    s.step (.control k ev) = some (({ (s.branch k session ev).1 with
      counters := server.counters }).conclude k { (s.branch k session ev).2 with
        server, written := (s.branch k session ev).2.written ++ writes } (breaks ev server)) := by
  simp only [Hub.step, hk, Option.bind_some]
  rw [if_pos ⟨hgreeted, hbranch⟩, Hub.control, hstep]
  rfl

/-- The end of a branch, whatever the Session is recorded to have written. -/
theorem conclude_rewrites (s : Hub) (k : ContextId) (session : ServerSession)
    (written : List Write) (b : Bool) :
    (s.conclude k session b).Rewrites (s.conclude k { session with written := written } b) := by
  unfold conclude
  dsimp only
  split
  · exact ⟨k, session, written, AList.lookup_insert _, by rw [AList.insert_insert]⟩
  · split_ifs
    · refine ⟨k, _, written, AList.lookup_insert _, ?_⟩
      dsimp only [setPending, dropGuard]
      rw [AList.insert_insert]
    · refine ⟨k, session, written, AList.lookup_insert _, ?_⟩
      dsimp only [dropGuard]
      rw [AList.insert_insert]

end Hub

namespace Server

/-- What a write does to the Session depends on its outcome only. -/
theorem writing_eq (s : Server) (m m' : Message) (o : WriteOutcome) :
    (s.writing m o).1 = (s.writing m' o).1 := by
  unfold writing writeBounded
  cases o <;> simp

/-- A write never ends the loop by `break`. -/
theorem breaks_writing {s : Server} (hrun : s.phase = .running) (ev : ServerEvent)
    (hev : ev ≠ .idle) (m : Message) (o : WriteOutcome) :
    Hub.breaks ev (s.writing m o).1 = false := by
  have hphase : (s.writing m o).1.phase ≠ .returned (.ok ()) := by
    rcases s.writing_cases m o with ⟨-, hw⟩ | ⟨-, error, hw⟩
    · rw [hw, hrun]
      nofun
    · rw [hw]
      nofun
  unfold Hub.breaks
  split
  · exact absurd rfl hev
  · exact decide_eq_false hphase

end Server

/-! ### The halves of a registration -/

namespace Writers

variable {s t : Writers} {k : ContextId} {session : ServerSession}

/-- Whoever waits for its acknowledgement to be written is a Session that runs. -/
structure Waiting (s : Writers) : Prop where
  unborn : ∀ k, s.hub.next ≤ k → (s.channels k).acking = none
  runs : ∀ k session, (s.channels k).acking.isSome = true →
    s.hub.sessions.lookup k = some session →
    session.greeted = true ∧ session.server.phase = .running

theorem Waiting.init (c : HubConfig) : Waiting (init c) where
  unborn _ _ := rfl
  runs _ _ h _ := by cases h

/-- A control loop that waits for a write is left alone, but for its queue. -/
theorem free_control {ev : ServerEvent} (h : s.free (.control k ev) = true) :
    (∃ deadlineMs, ev = .drainQueued deadlineMs) ∨ (s.channels k).acking = none := by
  unfold free at h
  split at h
  · rename_i heq
    cases heq
    exact .inl ⟨_, rfl⟩
  · rename_i heq
    cases heq
    exact .inr (Option.isNone_iff_eq_none.mp (Bool.and_eq_true_iff.mp h).1)
  · rename_i heq
    cases heq
    exact .inr (Option.isNone_iff_eq_none.mp h)
  · rename_i hother
    exact absurd rfl (hother k ev)

theorem Waiting.runs_step {e : WriterEvent} (hs : Waiting s) (h : s.step e = some t)
    {a : ContextId} {session' : ServerSession} (hacking : (t.channels a).acking.isSome = true)
    (ha' : t.hub.sessions.lookup a = some session') :
    session'.greeted = true ∧ session'.server.phase = .running := by
  cases moves_of_step h with
  | installed hk hgreeted hrun hfree haccepted =>
      rw [Table.lookup_insert_eq] at ha'
      split_ifs at ha' with hak
      · obtain rfl := Option.some.inj ha'
        exact ⟨hgreeted, (Server.registerService_frame haccepted).2.2.2.trans hrun⟩
      · dsimp only at hacking
        rw [Function.update_of_ne hak] at hacking
        exact hs.runs a session' hacking ha'
  | @acknowledged k o session r ack hk hacking' =>
      have hak : a ≠ k := by
        rintro rfl
        simp only [acknowledge, Function.update_self, Option.isSome_none, Bool.false_eq_true]
          at hacking
      dsimp only [acknowledge] at hacking ha'
      obtain ⟨⟨pending, hput⟩, -⟩ := Hub.conclude_put _ k _ false
      rw [hput, Table.lookup_insert_eq, if_neg hak] at ha'
      rw [Function.update_of_ne hak] at hacking
      exact hs.runs a session' hacking ha'
  | @went e hub hfree hstep =>
      rw [(s.advance_grows e a).1] at hacking
      cases Hub.sessionMove_of_step hstep ha' with
      | still session hk hsame =>
          obtain ⟨hgreeted, hrun⟩ := hs.runs a session hacking hk
          exact ⟨hsame.greeted.trans hgreeted, hsame.phase.trans hrun⟩
      | begun id principal negotiated hk =>
          rw [hs.unborn a hk.ge] at hacking
          cases hacking
      | greeted o session hk hbefore | unreached o session error hk hbefore =>
          cases hbefore.symm.trans (hs.runs a session hacking hk).1
      | moved ev session server writes pending hk hgreeted hbranch hmoved hafter =>
          rcases free_control hfree with ⟨deadlineMs, rfl⟩ | hnone
          · have hrun : (s.hub.lent session).phase = .running :=
              Server.running_of_branch hbranch hmoved
            simp only [Server.step, hrun] at hmoved
            obtain ⟨rfl, -⟩ := Prod.mk.inj (Option.some.inj hmoved)
            rw [hafter]
            refine ⟨hgreeted, ?_⟩
            show (Server.trySend _ _).phase = _
            unfold Server.trySend
            split_ifs <;> exact hrun
          · rw [hnone] at hacking
            cases hacking

theorem Waiting.step {e : WriterEvent} (hs : Waiting s) (hnumbered : s.hub.Numbered)
    (h : s.step e = some t) : Waiting t := by
  refine ⟨fun a hle => ?_, fun a session' hacking ha' => hs.runs_step h hacking ha'⟩
  cases moves_of_step h with
  | @installed k register os session server bind hk =>
      have hlt : s.hub.next < a := hle
      have hak : a ≠ k := ((hnumbered k session hk).trans hlt).ne'
      dsimp only
      rw [Function.update_of_ne hak]
      exact hs.unborn a hlt.le
  | @acknowledged k o session r ack hk =>
      dsimp only [acknowledge] at hle ⊢
      obtain ⟨-, -, hnext, -⟩ := Hub.conclude_put _ k _ false
      rw [hnext] at hle
      have hak : a ≠ k := ((hnumbered k session hk).trans_le hle).ne'
      rw [Function.update_of_ne hak]
      exact hs.unborn a hle
  | @went e hub hfree hstep =>
      rw [(s.advance_grows e a).1]
      exact hs.unborn a ((Hub.steady_step hstep).next.trans hle)

/-- The first half is the branch that accepts the registration. -/
theorem hub_of_install {register : RegisterService} {os : BindOutcome}
    (h : s.step (.install k register os) = some t) :
    ∃ hub, s.hub.step (.control k (.incoming (.registerService register) os .done)) = some hub ∧
      hub.Rewrites t.hub := by
  obtain @⟨_, _, _, session, server, bind, hk, hgreeted, hrun, -, haccepted⟩ := moves_of_step h
  have hserver : server.phase = .running :=
    (Server.registerService_frame haccepted).2.2.2.trans hrun
  have hstep : (s.hub.lent session).step (.incoming (.registerService register) os .done)
      = some (server, [(.registerAck ⟨register.serviceId, bind⟩, .done)]) := by
    have hlent : (s.hub.lent session).phase = .running := hrun
    simp only [Server.step, hlent, Server.onIncoming, haccepted]
    rcases server.writing_cases (.registerAck ⟨register.serviceId, bind⟩) .done with
      ⟨-, hw⟩ | ⟨hne, -⟩
    · exact congrArg some hw
    · exact absurd rfl hne
  refine ⟨_, Hub.step_control hk hgreeted rfl hstep, ?_⟩
  simp only [Hub.branch, haccepted]
  have hend := Hub.conclude_rewrites
    { s.hub with
      tasks := s.hub.tasks.insert s.hub.next ⟨k, register.serviceId, .accepting⟩
      next := s.hub.next + 1
      counters := server.counters } k
    { session with
      tokens := session.tokens.insert register.serviceId s.hub.next
      served := session.served ++ [(register, .accepted bind)]
      server
      written := session.written ++ [(.registerAck ⟨register.serviceId, bind⟩, .done)] }
    session.written (Hub.breaks (.incoming (.registerService register) os .done) server)
  refine cast (congrArg (Hub.Rewrites _) ?_) hend
  unfold Hub.conclude
  rw [hserver]

/-- The second half is, for the gauges, the answer to a `Ping`. -/
theorem hub_of_acknowledge {o : WriteOutcome} (hs : Waiting s)
    (h : s.step (.acknowledge k o) = some t) :
    ∃ hub, s.hub.step (.control k (.incoming (.ping ⟨0⟩) .unnamed o)) = some hub ∧
      hub.Rewrites t.hub := by
  obtain _ | @⟨_, _, session, r, ack, hk, hack⟩ := moves_of_step h
  obtain ⟨hgreeted, hrun⟩ := hs.runs k session (by rw [hack]; rfl) hk
  have hlent : (s.hub.lent session).phase = .running := hrun
  have hbreaks := Server.breaks_writing hlent (.incoming (.ping ⟨0⟩) .unnamed o) nofun (.pong ⟨0⟩) o
  have hsame := (s.hub.lent session).writing_eq (.pong ⟨0⟩) (.registerAck ack) o
  rcases hpong : (s.hub.lent session).writing (.pong ⟨0⟩) o with ⟨server, pong⟩
  rcases hacked : (s.hub.lent session).writing (.registerAck ack) o with ⟨server', acked⟩
  rw [hpong] at hbreaks hsame
  rw [hacked] at hsame
  obtain rfl : server = server' := hsame
  have hstep : (s.hub.lent session).step (.incoming (.ping ⟨0⟩) .unnamed o)
      = some (server, pong) := by
    simp only [Server.step, hlent, Server.onIncoming, hpong]
  refine ⟨_, Hub.step_control hk hgreeted rfl hstep, ?_⟩
  dsimp only [acknowledge]
  rw [hbreaks, hacked]
  exact Hub.conclude_rewrites { s.hub with counters := server.counters } k
    { session with server, written := session.written ++ pong } (session.written ++ acked) false

/-- **Each half is a step of the server**, up to what was written. -/
theorem hub_of_step {e : WriterEvent} (hs : Waiting s) (h : s.step e = some t) :
    ∃ e' hub, s.hub.step e' = some hub ∧ s.hub.Whole e' ∧ (hub = t.hub ∨ hub.Rewrites t.hub) ∧
      (e = .other e' ∨ ∃ k ev, e' = .control k ev) := by
  cases e with
  | install k register os =>
      obtain ⟨hub, hstep, hwrites⟩ := hub_of_install h
      refine ⟨_, hub, hstep, ?_, .inr hwrites, .inr ⟨_, _, rfl⟩⟩
      rintro k register os o session server bind heq - -
      cases heq
      rfl
  | acknowledge k o =>
      obtain ⟨hub, hstep, hwrites⟩ := hub_of_acknowledge hs h
      refine ⟨_, hub, hstep, ?_, .inr hwrites, .inr ⟨_, _, rfl⟩⟩
      rintro k register os o session server bind heq - -
      cases heq
  | other e =>
      obtain _ | _ | @⟨_, hub, hfree, hstep⟩ := moves_of_step h
      refine ⟨e, hub, hstep, ?_, .inl rfl, .inl rfl⟩
      -- an accepted registration would have gone by its halves
      rintro k register os o session server bind rfl hk haccepted
      simp only [free, hk, Option.all_some, haccepted, Bool.and_false, Bool.false_eq_true] at hfree

end Writers

/-! ### The server -/

/-- The server with its accept loop: the permits of `admission` that are taken,
and the `HandshakeGuard`s with their gauge and its mark. -/
structure Station where
  writers : Writers
  permits : Nat
  guards : Nat
  handshakes : Nat
  highWaterHandshakes : Nat

/-- What can happen to the accept loop and behind it. -/
inductive StationEvent
  /-- the accept loop has a new transport connection -/
  | accepted
  | guardDropped
  | permitDropped
  /-- any other event of the server -/
  | other (e : WriterEvent)

namespace Station

variable {s t : Station} {c : HubConfig}

/-- The server as it is bound. -/
def init (c : HubConfig) : Station := ⟨.init c, 0, 0, 0, 0⟩

/-- `AcceptContext::admit`, and `HandshakeGuard::new` if there is a permit. -/
def admitConnection (s : Station) : Station :=
  if s.permits < s.writers.hub.policy.limits.acceptedHandshakes then
    { s with
      permits := s.permits + 1
      guards := s.guards + 1
      handshakes := fetchAdd s.handshakes 1
      highWaterHandshakes := max s.highWaterHandshakes (fetchAdd s.handshakes 1) }
  else { s with writers := { s.writers with hub := s.writers.hub.recordSaturation } }

/-- One move of the accept loop or of the server. -/
def step (s : Station) : StationEvent → Option Station
  | .accepted => some s.admitConnection
  | .guardDropped =>
      match s.guards with
      | 0 => none
      | guards + 1 => some { s with guards, handshakes := fetchSub s.handshakes 1 }
  | .permitDropped =>
      match s.permits with
      | 0 => none
      | permits + 1 => some { s with permits }
  | .other e => (s.writers.step e).map fun writers => { s with writers }

/-- The gauge, as a snapshot shows it. -/
def gauge (g : Gauge) (s : Station) : Nat :=
  match g with
  | .sessions => s.writers.hub.counters.sessions
  | .services => s.writers.hub.counters.services
  | .pending => s.writers.hub.gauges.pending
  | .activeConnections => s.writers.hub.gauges.activeConnections
  | .openTasks => s.writers.hub.counters.openTasks
  | .handshakes => s.handshakes

/-- Its high-water mark. -/
def mark (g : Gauge) (s : Station) : Nat :=
  match g with
  | .sessions => s.writers.hub.gauges.highWaterSessions
  | .services => s.writers.hub.counters.highWaterServices
  | .pending => s.writers.hub.gauges.highWaterPending
  | .activeConnections => s.writers.hub.gauges.highWaterActiveConnections
  | .openTasks => s.writers.hub.counters.highWaterOpenTasks
  | .handshakes => s.highWaterHandshakes

/-- A new random id is not that of a live Session or of a pending connection. -/
def fresh (s : Station) : StationEvent → Bool
  | .other (.other e) => s.writers.hub.distinct e && s.writers.hub.unused e
  | _ => true

/-- What holds throughout a run with fresh ids. -/
structure Sound (c : HubConfig) (s : Station) : Prop where
  tabled : s.writers.hub.Tabled c
  reconciled : s.writers.hub.Reconciled c
  relayed : s.writers.hub.Relayed
  waiting : s.writers.Waiting
  handshakes : Counts s.guards s.handshakes s.highWaterHandshakes

theorem Sound.init (c : HubConfig) : Sound c (init c) where
  tabled := .init c
  reconciled := .init c
  relayed := .init c
  waiting := .init c
  handshakes := .zero 0

/-- `record_saturation` touches no gauge that has a mark. -/
theorem Sound.saturated (hs : Sound c s) :
    Sound c { s with writers := { s.writers with hub := s.writers.hub.recordSaturation } } where
  tabled := by
    obtain ⟨hpolicy, hbindPolicy, hnumbered, hregistered, htidy, hshared⟩ := hs.tabled
    exact ⟨hpolicy, hbindPolicy, hnumbered, ⟨hregistered.running, hregistered.live,
      hregistered.ids⟩, htidy, hshared.of_eq rfl rfl rfl rfl rfl⟩
  reconciled := ⟨hs.reconciled.policy, hs.reconciled.numbered, hs.reconciled.balanced⟩
  relayed := hs.relayed
  waiting := ⟨hs.waiting.unborn, hs.waiting.runs⟩
  handshakes := hs.handshakes

/-- The step of the server that a step of a control loop stands for. -/
theorem hub_of_step {e : WriterEvent} {writers : Writers} (hs : Sound c s)
    (hfresh : s.fresh (.other e) = true) (h : s.writers.step e = some writers) :
    ∃ e' hub, s.writers.hub.step e' = some hub ∧ s.writers.hub.Whole e' ∧
      s.writers.hub.distinct e' = true ∧ s.writers.hub.unused e' = true ∧
      (hub = writers.hub ∨ hub.Rewrites writers.hub) := by
  obtain ⟨e', hub, hstep, hwhole, hsame, he⟩ := Writers.hub_of_step hs.waiting h
  refine ⟨e', hub, hstep, hwhole, ?_, ?_, hsame⟩
  · rcases he with rfl | ⟨k, ev, rfl⟩
    · exact (Bool.and_eq_true_iff.mp hfresh).1
    · rfl
  · rcases he with rfl | ⟨k, ev, rfl⟩
    · exact (Bool.and_eq_true_iff.mp hfresh).2
    · rfl

theorem Sound.other {e : WriterEvent} {writers : Writers} (hs : Sound c s)
    (hfresh : s.fresh (.other e) = true) (h : s.writers.step e = some writers) :
    Sound c { s with writers } := by
  obtain ⟨e', hub, hstep, -, hdistinct, hunused, hsame⟩ := hub_of_step hs hfresh h
  have htabled := hs.tabled.step hunused hstep
  have hreconciled := (hs.reconciled.step hdistinct hstep).1
  have hrelayed := hs.relayed.step hstep
  have hwaiting := hs.waiting.step hs.tabled.numbered h
  rcases hsame with rfl | hsame
  · exact ⟨htabled, hreconciled, hrelayed, hwaiting, hs.handshakes⟩
  · refine ⟨htabled.rewrites hsame, hreconciled.rewrites hsame, ?_, hwaiting, hs.handshakes⟩
    obtain ⟨k, session, written, -, heq⟩ := hsame
    show Hub.Relayed writers.hub
    rw [heq]
    exact hrelayed

theorem Sound.step {e : StationEvent} (hs : Sound c s) (hfresh : s.fresh e = true)
    (h : s.step e = some t) : Sound c t := by
  cases e with
  | accepted =>
      obtain rfl := Option.some.inj h
      unfold admitConnection
      split_ifs
      · exact ⟨hs.tabled, hs.reconciled, hs.relayed, hs.waiting, hs.handshakes.add⟩
      · exact hs.saturated
  | guardDropped =>
      have hcounts := hs.handshakes
      dsimp only [Station.step] at h
      split at h
      · cases h
      · rename_i guards hguards
        obtain rfl := Option.some.inj h
        rw [hguards] at hcounts
        exact ⟨hs.tabled, hs.reconciled, hs.relayed, hs.waiting, hcounts.sub⟩
  | permitDropped =>
      dsimp only [Station.step] at h
      split at h
      · cases h
      · obtain rfl := Option.some.inj h
        exact ⟨hs.tabled, hs.reconciled, hs.relayed, hs.waiting, hs.handshakes⟩
  | other e =>
      obtain ⟨writers, hstep, rfl⟩ := Option.map_eq_some_iff.mp h
      exact hs.other hfresh hstep

/-- A control loop or a task raises a mark whenever it raises its gauge. -/
theorem rises_other {e : WriterEvent} {writers : Writers} (hs : Sound c s)
    (hfresh : s.fresh (.other e) = true) (h : s.writers.step e = some writers) (g : Gauge)
    (hcovers : s.gauge g ≤ s.mark g) :
    mark g { s with writers } = max (s.mark g) (gauge g { s with writers }) := by
  obtain ⟨e', hub, hstep, hwhole, hdistinct, hunused, hsame⟩ := hub_of_step hs hfresh h
  have hcounters : writers.hub.counters = hub.counters ∧ writers.hub.gauges = hub.gauges := by
    rcases hsame with rfl | ⟨k, session, written, -, heq⟩
    · exact ⟨rfl, rfl⟩
    · rw [heq]
      exact ⟨rfl, rfl⟩
  dsimp only [mark, gauge] at hcovers ⊢
  rw [hcounters.1, hcounters.2]
  cases g with
  | sessions => exact Hub.sessions_rises hs.tabled hcovers hstep
  | services =>
      exact Hub.services_rises hs.tabled (hs.tabled.step hunused hstep) hwhole hcovers hstep
  | pending => exact Hub.pending_rises hs.reconciled hdistinct hcovers hstep
  | activeConnections => exact hs.relayed.rises hstep
  | openTasks =>
      obtain ⟨hgauge, hmark⟩ := Hub.openTasks_of_step hstep
      exact rises_of_le hmark hgauge.le hcovers
  | handshakes => exact rises_of_le rfl le_rfl hcovers

theorem rises {e : StationEvent} (hs : Sound c s) (hfresh : s.fresh e = true)
    (h : s.step e = some t) (g : Gauge) (hcovers : s.gauge g ≤ s.mark g) :
    t.mark g = max (s.mark g) (t.gauge g) := by
  cases e with
  | accepted =>
      obtain rfl := Option.some.inj h
      unfold admitConnection
      split_ifs
      · cases g with
        | handshakes => rfl
        | _ => exact rises_of_le rfl le_rfl hcovers
      · exact rises_of_le (by cases g <;> rfl) (le_of_eq (by cases g <;> rfl)) hcovers
  | guardDropped =>
      have hcounts := hs.handshakes
      dsimp only [Station.step] at h
      split at h
      · cases h
      · rename_i guards hguards
        obtain rfl := Option.some.inj h
        rw [hguards] at hcounts
        cases g with
        | handshakes => exact (max_eq_left hcounts.sub.covers).symm
        | _ => exact rises_of_le rfl le_rfl hcovers
  | permitDropped =>
      dsimp only [Station.step] at h
      split at h
      · cases h
      · obtain rfl := Option.some.inj h
        exact rises_of_le (by cases g <;> rfl) (le_of_eq (by cases g <;> rfl)) hcovers
  | other e =>
      obtain ⟨writers, hstep, rfl⟩ := Option.map_eq_some_iff.mp h
      exact rises_other hs hfresh hstep g hcovers

/-- The marks of a server, for every gauge. -/
theorem highWater (c : HubConfig) (g : Gauge) {es : List StationEvent}
    (hfresh : AllSteps step (fun s e => s.fresh e = true) (init c) es)
    (h : exec step (init c) es = some t) : HighWater step (gauge g) (mark g) (init c) es t :=
  highWater_of_rises (fun _ _ _ hs hfresh h => Sound.step hs hfresh h)
    (fun _ _ _ hs hfresh hcovers h => rises hs hfresh h g hcovers) (.init c)
    (by cases g <;> rfl) hfresh h

end Station

end Eggtunnel
