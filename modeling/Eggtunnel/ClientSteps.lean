/-
Eggtunnel/ClientSteps.lean

What one step of the client does to its transactions, one statement for each
kind of branch, and what holds of the client until it leaves its loop.
-/
import Eggtunnel.Client
import Eggtunnel.Transactions

namespace Eggtunnel

/-- The events of the client that bring it neither a frame nor a command. -/
def ClientEvent.isOwn : ClientEvent → Bool
  | .incoming _ _ => false
  | .command _ _ _ => false
  | _ => true

/-- The phases in which the Session still reads frames. -/
def Phase.isOpen : Phase → Bool
  | .registering _ _ | .ready => true
  | .draining _ | .returned _ => false

namespace Client

variable {s t : Client} {fx : Effects}

/-! ### The branches -/

/-- What a step was, one constructor for each branch of `run_session`. -/
inductive Did (s : Client) : ClientEvent → Client → Effects → Prop
  | cancelRequested : Did s .cancelRequested { s with cancel := true } {}
  | callerGone {caller} : Did s (.callerGone caller) { s with closed := caller :: s.closed } {}
  | registerNext {service todo o t fx} (hphase : s.phase = .registering (service :: todo) false)
      (heq : s.registerNext service todo o = (t, fx)) : Did s (.registerNext o) t fx
  | initialResponse {service todo m o} (hphase : s.phase = .registering (service :: todo) true) :
      Did s (.incoming m o) (s.initialResponse service todo m) {}
  | initialReadFailed {todo err} (hphase : s.phase = .registering todo true) :
      Did s (.readFailed err) { s with phase := .returned (.error err.toTunnelError) } {}
  | incoming {m o t fx} (hready : s.phase = .ready) (heq : s.onIncoming m o = (t, fx)) :
      Did s (.incoming m o) t fx
  | readFailed {err} (hready : s.phase = .ready) (hne : err ≠ .timeout) :
      Did s (.readFailed err) (s.fail err.toTunnelError) {}
  | cancelled {o t fx} (hready : s.phase = .ready) (heq : s.onCancelled o = (t, fx))
      (hcancel : s.cancel = true) : Did s (.cancelled o) t fx
  | heartbeatTick {now} (hready : s.phase = .ready) :
      Did s (.heartbeatTick now) (s.onHeartbeatTick now) {}
  | registrationDeadline {now t fx} (hready : s.phase = .ready)
      (heq : s.onDeadline now = (t, fx)) (hdue : s.services.nextDeadline.any (· ≤ now) = true) :
      Did s (.registrationDeadline now) t fx
  | outbound {m rest o t fx} (hready : s.phase = .ready) (hqueue : s.outbox = m :: rest)
      (heq : s.onOutbound m rest o = (t, fx)) : Did s (.outbound o) t fx
  | register {service reply o now t fx} (hready : s.phase = .ready)
      (heq : s.onRegister service reply o now = (t, fx)) :
      Did s (.command (.register service reply) o now) t fx
  | unregister {id reply o now t fx} (hready : s.phase = .ready)
      (heq : s.onUnregister id reply o = (t, fx)) :
      Did s (.command (.unregister id reply) o now) t fx
  | openFinished {c failed task} (hready : s.phase = .ready)
      (htask : s.opens.find? (·.frame.connectionId = c) = some task) :
      Did s (.openFinished c failed) (s.onOpenFinished task failed) {}
  | openJoined (hready : s.phase = .ready) (hunjoined : 0 < s.unjoined) :
      Did s .openJoined { s with unjoined := s.unjoined - 1 } {}
  | openDrained {timedOut c failed task} (hphase : s.phase = .draining timedOut)
      (htask : s.opens.find? (·.frame.connectionId = c) = some task) :
      Did s (.openFinished c failed) (s.onOpenFinished task (failed && timedOut)) {}
  | tornDown {timedOut t fx} (hphase : s.phase = .draining timedOut)
      (heq : s.onTornDown timedOut = (t, fx)) : Did s .tornDown t fx

/-- **Inversion of the step function.** -/
theorem did_of_step {e : ClientEvent} (h : s.step e = some (t, fx)) : Did s e t fx := by
  unfold step at h
  split at h
  · cases h
    exact .cancelRequested
  · cases h
    exact .callerGone
  · rename_i hphase
    exact .registerNext hphase (Option.some.inj h)
  · rename_i hphase
    cases h
    exact .initialResponse hphase
  · rename_i hphase
    cases h
    exact .initialReadFailed hphase
  · rename_i hready
    exact .incoming hready (Option.some.inj h)
  · cases h
  · rename_i hne hready
    cases h
    exact .readFailed hready hne
  · rename_i hready
    split_ifs at h with hcancel
    exact .cancelled hready (Option.some.inj h) hcancel
  · rename_i hready
    cases h
    exact .heartbeatTick hready
  · rename_i hready
    split_ifs at h with hdue
    exact .registrationDeadline hready (Option.some.inj h) hdue
  · rename_i hready
    split at h
    · rename_i hqueue
      exact .outbound hready hqueue (Option.some.inj h)
    · cases h
  · rename_i hready
    exact .register hready (Option.some.inj h)
  · rename_i hready
    exact .unregister hready (Option.some.inj h)
  · rename_i hready
    obtain ⟨task, htask, heq⟩ := Option.map_eq_some_iff.mp h
    cases heq
    exact .openFinished hready htask
  · rename_i hready
    split_ifs at h with hunjoined
    cases h
    exact .openJoined hready hunjoined
  · rename_i hphase
    obtain ⟨task, htask, heq⟩ := Option.map_eq_some_iff.mp h
    cases heq
    exact .openDrained hphase htask
  · rename_i hphase
    exact .tornDown hphase (Option.some.inj h)
  · cases h

/-! ### What a branch keeps -/

/-- What every branch of the select loop keeps. -/
structure Frame (s t : Client) : Prop where
  sessionId : t.sessionId = s.sessionId
  generation : t.generation = s.generation
  correlated : t.correlated = s.correlated
  outbox : ∀ m ∈ t.outbox, m ∈ s.outbox ∨ m.isChatter = true

/-- What a branch keeps that touches neither transactions nor binds. -/
structure Kept (s t : Client) : Prop extends Frame s t where
  services : t.services = s.services
  binds : t.counters.binds = s.counters.binds

theorem Kept.refl (s : Client) : Kept s s := ⟨⟨rfl, rfl, rfl, fun _ => .inl⟩, rfl, rfl⟩

theorem Kept.fail (hk : Kept s t) (e : TunnelError) : Kept s (t.fail e) :=
  ⟨⟨hk.sessionId, hk.generation, hk.correlated, hk.outbox⟩, hk.services, hk.binds⟩

theorem Kept.trySend (hk : Kept s t) {m : Message} (hm : m.isChatter = true) :
    Kept s (t.trySend m) := by
  unfold Client.trySend
  split_ifs
  · refine ⟨⟨hk.sessionId, hk.generation, hk.correlated, fun x hx => ?_⟩, hk.services, hk.binds⟩
    rcases List.mem_append.mp hx with hx | hx
    · exact hk.outbox x hx
    · rw [List.mem_singleton.mp hx]
      exact .inr hm
  · exact hk

theorem kept_onHeartbeatTick (s : Client) (now : Instant) : Kept s (s.onHeartbeatTick now) := by
  unfold onHeartbeatTick
  split_ifs
  · exact Kept.refl s
  · refine ⟨⟨rfl, rfl, rfl, fun x hx => ?_⟩, rfl, rfl⟩
    rcases List.mem_append.mp hx with hx | hx
    · exact .inl hx
    · rw [List.mem_singleton.mp hx]
      exact .inr rfl
  · exact ⟨⟨rfl, rfl, rfl, fun _ => .inl⟩, rfl, rfl⟩

theorem kept_onOpen (s : Client) (frame : Open) : Kept s (s.onOpen frame) := by
  unfold onOpen
  split
  · exact (Kept.refl s).trySend rfl
  · split_ifs
    · exact ⟨⟨rfl, rfl, rfl, fun _ => .inl⟩, rfl, rfl⟩
    · exact (Kept.refl s).trySend rfl

theorem kept_onPong (s : Client) (pong : Pong) : Kept s (s.onPong pong) := by
  unfold onPong
  split
  · split_ifs
    · exact ⟨⟨rfl, rfl, rfl, fun _ => .inl⟩, rfl, rfl⟩
    · exact Kept.refl s
  · exact Kept.refl s

theorem kept_onOpenFinished (s : Client) (task : OpenTask) (reject : Bool) :
    Kept s (s.onOpenFinished task reject) := by
  unfold onOpenFinished
  have hk : Kept s { s with
      opens := s.opens.erase task
      unjoined := s.unjoined + 1
      counters := { s.counters with openTasks := fetchSub s.counters.openTasks 1 } } :=
    ⟨⟨rfl, rfl, rfl, fun _ => .inl⟩, rfl, rfl⟩
  dsimp only
  split_ifs
  · exact hk.trySend rfl
  · exact hk

theorem kept_onOutbound {m : Message} {rest : List Message} {o : WriteOutcome}
    (hq : s.outbox = m :: rest) :
    Kept s (s.onOutbound m rest o).1 ∧ (s.onOutbound m rest o).2.writes = [(m, o)] ∧
    (s.onOutbound m rest o).2.answers = [] := by
  have hk : Kept s { s with outbox := rest } :=
    ⟨⟨rfl, rfl, rfl, fun x hx => .inl (hq ▸ List.mem_cons_of_mem _ hx)⟩, rfl, rfl⟩
  unfold onOutbound
  dsimp only
  split
  · exact ⟨hk, rfl, rfl⟩
  · exact ⟨hk.fail _, rfl, rfl⟩

/-- The frames that reach the client unasked, and the `Pong`s. -/
def Unasked (m : Message) : Prop := m.isNotice = true ∨ ∃ pong, m = .pong pong

/-- **The branches of the select loop without a frame or a command** keep the
transactions, the deadline branch apart. -/
theorem step_own (hready : s.phase = .ready) {e : ClientEvent} (hown : e.isOwn = true)
    (houtbox : ∀ m ∈ s.outbox, m.isChatter = true) (h : s.step e = some (t, fx)) :
    (Kept s t ∧ fx.answers = [] ∧ (fx.writes = [] ∨
      ∃ m o, fx.writes = [(m, o)] ∧ (m.isChatter = true ∨ m.isNotice = true))) ∨
    (∃ now x, e = .registrationDeadline now ∧
      s.services.expireOverdue now = (t.services, fx.answers, x) ∧ fx.writes = [] ∧
      Frame s t ∧ t.counters.binds = s.counters.binds ∧ (t.phase = .ready → x ≠ .legacy)) := by
  have hquiet {u : Client} (hu : Kept s u) :
      Kept s u ∧ ([] : List Answer) = [] ∧ (([] : List Write) = [] ∨
        ∃ m o, ([] : List Write) = [(m, o)] ∧ (m.isChatter = true ∨ m.isNotice = true)) :=
    ⟨hu, rfl, .inl rfl⟩
  cases did_of_step h with
  | incoming | initialResponse | register | unregister => cases hown
  | cancelRequested | callerGone | openJoined =>
      exact .inl (hquiet ⟨⟨rfl, rfl, rfl, fun _ => .inl⟩, rfl, rfl⟩)
  | readFailed => exact .inl (hquiet ((Kept.refl s).fail _))
  | cancelled _ heq =>
      obtain ⟨rfl, rfl⟩ := Prod.mk.inj heq
      exact .inl ⟨⟨⟨rfl, rfl, rfl, fun _ => .inl⟩, rfl, rfl⟩, rfl, .inr ⟨_, _, rfl, .inr rfl⟩⟩
  | heartbeatTick => exact .inl (hquiet (s.kept_onHeartbeatTick _))
  | @registrationDeadline now _ _ _ heq =>
      refine .inr ⟨now, ?_⟩
      unfold onDeadline at heq
      split at heq
      · rename_i services answers hexp
        obtain ⟨rfl, rfl⟩ := Prod.mk.inj heq
        exact ⟨.legacy, rfl, hexp, rfl, ⟨rfl, rfl, rfl, fun _ => .inl⟩, rfl, by simp⟩
      · rename_i services answers x hne hexp
        obtain ⟨rfl, rfl⟩ := Prod.mk.inj heq
        exact ⟨x, rfl, hexp, rfl, ⟨rfl, rfl, rfl, fun _ => .inl⟩, rfl, fun _ => hne⟩
  | @outbound m rest o _ _ _ hqueue heq =>
      obtain ⟨hkept, hwrites, hanswers⟩ := kept_onOutbound (s := s) (o := o) hqueue
      rw [heq] at hkept hwrites hanswers
      exact .inl ⟨hkept, hanswers,
        .inr ⟨m, o, hwrites, .inl (houtbox m (hqueue ▸ List.mem_cons_self))⟩⟩
  | openFinished => exact .inl (hquiet (s.kept_onOpenFinished _ _))
  | registerNext hphase | initialReadFailed hphase | openDrained hphase | tornDown hphase =>
      cases hready.symm.trans hphase

/-- **The frames that answer no registration** keep the transactions. -/
theorem onIncoming_unasked (s : Client) {m : Message} (hm : Unasked m) (o : WriteOutcome) :
    Kept s (s.onIncoming m o).1 ∧ (s.onIncoming m o).2 = {} := by
  rcases hm with hm | ⟨pong, rfl⟩
  · cases m with
    | «open» frame => exact ⟨s.kept_onOpen frame, rfl⟩
    | drain drain => exact ⟨⟨⟨rfl, rfl, rfl, fun _ => .inl⟩, rfl, rfl⟩, rfl⟩
    | _ => cases hm
  · exact ⟨s.kept_onPong pong, rfl⟩

/-! ### Commands -/

/-- A `Register` gets past the capacity, liveness and duplicate checks. -/
def admits (s : Client) (service : ClientService) (caller : CallerId) : Bool :=
  decide (s.services.desired.length + s.services.unacknowledged <
      s.policy.limits.servicesPerSession)
    && !s.isClosed caller && !s.services.duplicate service

/-- What a `Register` did to the transactions, if the Session goes on: nothing,
or it cost the id its tombstone, or it made a request, or its request was never
sent. -/
inductive Registered (s : Client) (service : ClientService) (caller : CallerId)
    (o : WriteOutcome) (t : ServiceState) (writes : List Write) : Prop
  | denied (hlive : t.live = s.services.live) (hdead : t.dead = s.services.dead)
      (hwrites : writes = [])
  | full (hadmits : s.admits service caller = true) (hlive : t.live = s.services.live)
      (hdead : t.dead = s.services.dead \ {service.id}) (hwrites : writes = [])
  | sent (hadmits : s.admits service caller = true)
      (hfree : s.services.live service.id = none)
      (hidle : s.correlated = false → ∀ k, s.services.live k = none)
      (hnew : s.services.enrolled service.id = none)
      (hlive : t.live = Function.update s.services.live service.id
        (some ⟨service.registration, some caller⟩))
      (hdead : t.dead = s.services.dead \ {service.id})
      (hdone : o = .done)
      (hwrites : writes = [(.registerService service.registration, o)])
  | unsent (hadmits : s.admits service caller = true) (hmode : s.correlated = true)
      (hfree : s.services.live service.id = none) (hlive : t.live = s.services.live)
      (hdead : t.dead ⊆ insert service.id s.services.dead)
      (hlost : o ≠ .done)
      (hwrites : writes = [(.registerService service.registration, o)])

variable {service : ClientService} {caller : CallerId} {o : WriteOutcome} {now : Instant}

/-- **A `Register` that leaves the Session in its loop.** -/
theorem onRegister_ready (hc : s.services.Consistent s.correlated s.generation)
    (h : s.onRegister service caller o now = (t, fx)) (ht : t.phase = .ready) :
    Frame s t ∧ t.counters.binds = s.counters.binds ∧
    t.services.Consistent s.correlated s.generation ∧ t.services.active = s.services.active ∧
    Registered s service caller o t.services fx.writes := by
  unfold onRegister at h
  split_ifs at h with hlimit hclosed
  · obtain ⟨rfl, rfl⟩ := Prod.mk.inj h
    exact ⟨⟨rfl, rfl, rfl, fun _ => .inl⟩, rfl, hc, rfl, .denied rfl rfl rfl⟩
  · obtain ⟨rfl, rfl⟩ := Prod.mk.inj h
    exact ⟨⟨rfl, rfl, rfl, fun _ => .inl⟩, rfl, hc, rfl, .denied rfl rfl rfl⟩
  have hadmits (hdup : s.services.duplicate service = false) : s.admits service caller = true := by
    simp [admits, hdup, hclosed]
    omega
  split at h
  · rename_i services e hbegin
    obtain ⟨rfl, rfl⟩ := Prod.mk.inj h
    rcases ServiceState.begin_eq_error hbegin with ⟨-, -, rfl⟩ | ⟨hdup, -, rfl⟩
    · exact ⟨⟨rfl, rfl, rfl, fun _ => .inl⟩, rfl, hc, rfl, .denied rfl rfl rfl⟩
    · exact ⟨⟨rfl, rfl, rfl, fun _ => .inl⟩, rfl, hc.erase_abandoned service.id, rfl,
        .full (hadmits hdup) rfl (ServiceState.dead_erase service.id) rfl⟩
  · rename_i services hbegin
    obtain ⟨hdup, hc', hlive, hdead, hactive, hmode, hidle⟩ := ServiceState.begin_ok hc hbegin
    have hfree := hc.live_eq_none_of_not_duplicate hdup
    unfold writeRegistration at h
    dsimp only at h
    cases o with
    | done =>
        rw [writeBudgeted_done] at h
        dsimp only at h
        obtain ⟨rfl, rfl⟩ := Prod.mk.inj h
        obtain ⟨hc'', hlive', hdead', hactive'⟩ := ServiceState.armDeadline_spec hc' service.id
          (now + s.policy.timeouts.handshake)
        exact ⟨⟨rfl, rfl, rfl, fun _ => .inl⟩, rfl, hc'', hactive'.trans hactive,
          .sent (hadmits hdup) hfree hidle (hc.enrolled_eq_none_of_not_duplicate hdup)
            (hlive'.trans hlive) (hdead'.trans hdead) rfl rfl⟩
    | failed accepted kind =>
        -- an i/o error ends the Session
        rw [writeBudgeted_failed] at h
        cases kind <;> simp only [ioError] at h <;> obtain ⟨rfl, rfl⟩ := Prod.mk.inj h <;> cases ht
    | cut accepted =>
        rw [writeBudgeted_cut] at h
        dsimp only at h
        split at h
        · obtain ⟨rfl, rfl⟩ := Prod.mk.inj h
          cases ht
        · rename_i n hbounded
          have hcorr : s.correlated = true := by
            rcases hc'.modes with ⟨-, hm, -⟩ | ⟨hm, -⟩
            · rw [hbounded] at hm
              cases hm
            · exact hm
          rw [hcorr] at hc'
          rcases ha : services.abandon service.id with ⟨services', answers⟩
          rw [ha] at h
          obtain ⟨rfl, rfl⟩ := Prod.mk.inj h
          obtain ⟨hc'', hlive', hdead', hactive'⟩ :=
            hc'.abandon (by rw [hlive, Function.update_self]; rfl) ha
          refine ⟨⟨rfl, rfl, rfl, fun _ => .inl⟩, rfl, hcorr ▸ hc'', hactive'.trans hactive,
            .unsent (hadmits hdup) hcorr hfree ?_ (fun k hk => ?_) (by simp) rfl⟩
          · dsimp only
            rw [hlive', hlive, Function.update_idem, ← hfree, Function.update_eq_self]
          · rcases hdead' hk with rfl | hk
            · exact .inl rfl
            · exact .inr (hdead ▸ hk).1

/-- **An `Unregister` that leaves the Session in its loop.** -/
theorem onUnregister_ready {id : ServiceId}
    (hc : s.services.Consistent s.correlated s.generation)
    (h : s.onUnregister id caller o = (t, fx)) (ht : t.phase = .ready) :
    Frame s t ∧ t.services.Consistent s.correlated s.generation ∧
    t.services.live = Function.update s.services.live id none ∧
    t.services.enrolled = Function.update s.services.enrolled id none ∧
    (t.services.dead = if s.correlated = false ∧ (s.services.live id).isSome then
        insert id (if 256 ≤ s.services.abandoned.size then ∅ else s.services.dead)
      else s.services.dead) ∧
    t.counters.binds = (if (s.services.enrolled id).isSome then
        s.counters.binds.filter (·.service ≠ id) else s.counters.binds) ∧
    fx.writes = [(.unregisterService ⟨id⟩, o)] := by
  unfold onUnregister at h
  rcases hu : s.services.unregister id with ⟨services, answers, present⟩
  obtain ⟨hc', hlive, henrolled, hpresent, hdead⟩ := hc.unregister hu
  rw [hu] at h
  dsimp only at h
  cases present with
  | false =>
      obtain ⟨rfl, rfl⟩ := Prod.mk.inj h
      exact ⟨⟨rfl, rfl, rfl, fun _ => .inl⟩, hc', hlive, henrolled, hdead,
        by rw [← hpresent]; rfl, rfl⟩
  | true =>
      -- the Service was in use: a write that fails ends the Session
      dsimp only at h
      split at h
      · obtain ⟨rfl, rfl⟩ := Prod.mk.inj h
        exact ⟨⟨rfl, rfl, rfl, fun _ => .inl⟩, hc', hlive, henrolled, hdead,
          by rw [← hpresent]; rfl, rfl⟩
      · obtain ⟨rfl, rfl⟩ := Prod.mk.inj h
        cases ht

/-! ### Responses -/

/-- What an acknowledgement did: it committed the transaction of its id, or
undid it, or found a tombstone, or ended the Session. -/
inductive Acknowledged (s : Client) (ack : RegisterAck) (o : WriteOutcome) (t : Client)
    (fx : Effects) : Prop
  | commit {register : RegisterService} {caller : CallerId}
      (hfound : s.services.live ack.serviceId = some ⟨register, some caller⟩)
      (hphase : t.phase = s.phase)
      (hlive : t.services.live = Function.update s.services.live ack.serviceId none)
      (hdead : t.services.dead = s.services.dead)
      (hactive : t.services.enrolled
        = Function.update s.services.enrolled ack.serviceId (some register))
      (hbinds : t.counters.binds
        = s.counters.binds ++ [⟨s.sessionId, ack.serviceId, ack.effectiveBind⟩])
      (hwrites : fx.writes = []) (hanswers : fx.answers = [(caller, .ok ack.effectiveBind)])
  | undo {r : Request} (hfound : s.services.live ack.serviceId = some r)
      (hphase : t.phase = s.phase)
      (hlive : t.services.live = Function.update s.services.live ack.serviceId none)
      (hdead : t.services.dead = s.services.dead)
      (hactive : t.services.active = s.services.active)
      (hbinds : t.counters.binds = s.counters.binds)
      (hwrites : fx.writes = [(.unregisterService ⟨ack.serviceId⟩, o)])
      (hanswers : fx.answers = [])
  | undoDead (hnone : s.services.live ack.serviceId = none)
      (hfound : ack.serviceId ∈ s.services.dead) (hphase : t.phase = s.phase)
      (hlive : t.services.live = s.services.live)
      (hdead : t.services.dead = s.services.dead \ {ack.serviceId})
      (hactive : t.services.active = s.services.active)
      (hbinds : t.counters.binds = s.counters.binds)
      (hwrites : fx.writes = [(.unregisterService ⟨ack.serviceId⟩, o)])
      (hanswers : fx.answers = [])
  | unplaced (hnone : s.services.live ack.serviceId = none)
      (hdead : ack.serviceId ∉ s.services.dead)
      (hphase : t.phase = .returned (.error (.protocol .unexpectedMessage)))
      (hwrites : fx.writes = []) (hanswers : fx.answers = [])

variable {ack : RegisterAck}

/-- **What an acknowledgement does in the select loop.** -/
theorem onRegisterAck_cases (hc : s.services.Consistent s.correlated s.generation)
    (h : s.onRegisterAck ack o = (t, fx)) :
    Frame s t ∧ (t.phase = s.phase → s.phase = .ready →
      t.services.Consistent s.correlated s.generation) ∧ Acknowledged s ack o t fx := by
  unfold onRegisterAck at h
  rcases htake : s.services.takeAck ack.serviceId s.generation s.isClosed with ⟨services, d⟩
  rw [htake] at h
  rcases hc.takeAck_cases htake with ⟨txn, caller, htxn, hreply, hc', htaken, hd⟩ |
    ⟨hnone, hdead, rfl, rfl⟩ | ⟨hnone, hdead, rfl⟩
  · obtain ⟨-, hid⟩ := hc.transaction_mem htxn
    have hfound : s.services.live ack.serviceId = some txn.request := by
      rw [ServiceState.live, htxn]
      rfl
    rcases hd with rfl | rfl
    · obtain ⟨rfl, rfl⟩ := Prod.mk.inj h
      rw [PendingRegistration.request, hreply] at hfound
      refine ⟨⟨rfl, rfl, rfl, fun _ => .inl⟩, fun _ _ => hc'.commit txn.service,
        .commit hfound rfl htaken.live htaken.dead ?_ ?_ rfl rfl⟩
      · refine (ServiceState.enrolled_commit services txn.service).trans ?_
        rw [hid]
        congr 1
        funext k
        rw [ServiceState.enrolled, ServiceState.enrolled, htaken.active]
      · rw [← hid]
    · obtain ⟨rfl, rfl⟩ := Prod.mk.inj h
      exact ⟨⟨rfl, rfl, rfl, fun _ => .inl⟩, fun _ _ => hc',
        .undo hfound rfl htaken.live htaken.dead htaken.active rfl rfl rfl⟩
  · obtain ⟨rfl, rfl⟩ := Prod.mk.inj h
    refine ⟨⟨rfl, rfl, rfl, fun _ => .inl⟩, fun _ _ => hc.erase_abandoned ack.serviceId,
      .undoDead ?_ hdead rfl rfl (ServiceState.dead_erase ack.serviceId) rfl rfl rfl rfl⟩
    rw [ServiceState.live, hnone]
    rfl
  · obtain ⟨rfl, rfl⟩ := Prod.mk.inj h
    refine ⟨⟨rfl, rfl, rfl, fun _ => .inl⟩, ?_, .unplaced ?_ hdead rfl rfl rfl⟩
    · intro hphase hready
      rw [hready] at hphase
      cases hphase
    · rw [ServiceState.live, hnone]
      rfl

/-- What a refusal did: one that names its id found the transaction or a
tombstone, a generic one found whatever was live, or it ended the Session. -/
inductive Refused (s : Client) (id : ServiceId) (e : TunnelError) (t : Client) (fx : Effects) :
    Prop
  | found {k : ServiceId} {register : RegisterService} {caller : CallerId}
      (hkey : s.correlated = true → k = id)
      (hfound : s.services.live k = some ⟨register, some caller⟩)
      (hphase : t.phase = s.phase)
      (hlive : t.services.live = Function.update s.services.live k none)
      (hdead : t.services.dead = s.services.dead)
      (hanswers : fx.answers = [(caller, .error e)])
  | dead (hmode : s.correlated = true) (hnone : s.services.live id = none)
      (hfound : id ∈ s.services.dead) (hphase : t.phase = s.phase)
      (hlive : t.services.live = s.services.live)
      (hdead : t.services.dead = s.services.dead \ {id}) (hanswers : fx.answers = [])
  | unplaced (hnone : if s.correlated then s.services.live id = none ∧ id ∉ s.services.dead
        else ∀ k, s.services.live k = none)
      (hphase : ∃ e, t.phase = .returned (.error e)) (hanswers : fx.answers = [])

/-- **What a correlated refusal does in the select loop.** -/
theorem onRegisterReject_cases {reject : RegisterReject} (hmode : s.correlated = true)
    (hc : s.services.Consistent s.correlated s.generation)
    (h : s.onRegisterReject reject = (t, fx)) :
    Frame s t ∧ (t.phase = s.phase → s.phase = .ready →
      t.services.Consistent s.correlated s.generation ∧ t.services.active = s.services.active) ∧
    t.counters.binds = s.counters.binds ∧ fx.writes = [] ∧
    Refused s reject.serviceId (registrationErrorCode reject.code) t fx := by
  unfold onRegisterReject at h
  rw [if_pos hmode] at h
  rcases htake : s.services.takeReject reject.serviceId s.generation with ⟨services, d⟩
  rw [htake] at h
  have hidle (hnone : s.services.transaction reject.serviceId = none) :
      s.services.live reject.serviceId = none := by
    rw [ServiceState.live, hnone]
    rfl
  rcases hc.takeReject_cases htake with ⟨txn, caller, htxn, hreply, hc', htaken, rfl⟩ |
    ⟨hnone, hdead, rfl, rfl⟩ | ⟨hnone, hdead, rfl⟩
  · obtain ⟨rfl, rfl⟩ := Prod.mk.inj h
    have hfound : s.services.live reject.serviceId
        = some ⟨txn.service.registration, some caller⟩ := by
      rw [ServiceState.live, htxn, ← hreply]
      rfl
    exact ⟨⟨rfl, rfl, rfl, fun _ => .inl⟩, fun _ _ => ⟨hc', htaken.active⟩, rfl, rfl,
      .found (fun _ => rfl) hfound rfl htaken.live htaken.dead rfl⟩
  · obtain ⟨rfl, rfl⟩ := Prod.mk.inj h
    exact ⟨⟨rfl, rfl, rfl, fun _ => .inl⟩,
      fun _ _ => ⟨hc.erase_abandoned reject.serviceId, rfl⟩, rfl, rfl,
      .dead hmode (hidle hnone) hdead rfl rfl (ServiceState.dead_erase reject.serviceId) rfl⟩
  · obtain ⟨rfl, rfl⟩ := Prod.mk.inj h
    refine ⟨⟨rfl, rfl, rfl, fun _ => .inl⟩, ?_, rfl, rfl, .unplaced ?_ ⟨_, rfl⟩ rfl⟩
    · intro hphase hready
      rw [hready] at hphase
      cases hphase
    · rw [if_pos hmode]
      exact ⟨hidle hnone, hdead⟩

/-- **What a generic refusal does in the select loop.** -/
theorem onError_cases {error : ErrorMessage} (hmode : s.correlated = false) (id : ServiceId)
    (hc : s.services.Consistent s.correlated s.generation)
    (h : s.onError error = (t, fx)) :
    Frame s t ∧ (t.phase = s.phase → s.phase = .ready →
      t.services.Consistent s.correlated s.generation ∧ t.services.active = s.services.active) ∧
    t.counters.binds = s.counters.binds ∧ fx.writes = [] ∧
    Refused s id (registrationErrorCode error.code) t fx := by
  unfold onError at h
  rcases hr : s.services.reject with ⟨services, reply⟩
  rw [hr] at h
  rcases reply with - | reply
  · obtain ⟨rfl, rfl⟩ := Prod.mk.inj h
    refine ⟨⟨rfl, rfl, rfl, fun _ => .inl⟩, ?_, rfl, rfl, .unplaced ?_ ⟨_, rfl⟩ rfl⟩
    · intro hphase hready
      rw [hready] at hphase
      cases hphase
    · rw [if_neg (by simp [hmode])]
      intro k
      rw [ServiceState.live, ServiceState.transaction_of_pending_none
        (ServiceState.reject_none hr), (hc.serial hmode).2, AList.lookup_empty]
      rfl
  · obtain ⟨rfl, rfl⟩ := Prod.mk.inj h
    obtain ⟨txn, caller, htxn, hreply, rfl, -, hc', htaken⟩ := hc.reject_some hr
    have hfound : s.services.live txn.service.id
        = some ⟨txn.service.registration, some caller⟩ := by
      rw [ServiceState.live, htxn, ← hreply]
      rfl
    exact ⟨⟨rfl, rfl, rfl, fun _ => .inl⟩, fun _ _ => ⟨hc', htaken.active⟩, rfl, rfl,
      .found (fun hm => by simp [hmode] at hm) hfound rfl htaken.live htaken.dead rfl⟩

/-! ### Initial registration, and the Session as a whole -/

theorem phase_trySend (s : Client) (m : Message) : (s.trySend m).phase = s.phase := by
  unfold trySend
  split_ifs <;> rfl

theorem phase_onOpenFinished (s : Client) (task : OpenTask) (reject : Bool) :
    (s.onOpenFinished task reject).phase = s.phase := by
  unfold onOpenFinished
  dsimp only
  split_ifs
  · exact phase_trySend _ _
  · rfl

/-- **Once the Session has left its loop** it does not come back, writes
nothing and has only failures to report. -/
theorem step_closed {e : ClientEvent} (hs : s.phase.isOpen = false)
    (h : s.step e = some (t, fx)) :
    e.isOwn = true ∧ t.phase.isOpen = false ∧ fx.writes = [] ∧ Failures fx.answers := by
  cases did_of_step h with
  | cancelRequested | callerGone => exact ⟨rfl, hs, rfl, Failures.nil⟩
  | openDrained hphase =>
      refine ⟨rfl, ?_, rfl, Failures.nil⟩
      rw [phase_onOpenFinished]
      exact hs
  | tornDown hphase heq =>
      obtain ⟨rfl, rfl⟩ := Prod.mk.inj heq
      exact ⟨rfl, rfl, rfl, Failures.flatMap _ _⟩
  | registerNext hphase | initialResponse hphase | initialReadFailed hphase | incoming hphase
  | readFailed hphase | cancelled hphase | heartbeatTick hphase | registrationDeadline hphase
  | outbound hphase | register hphase | unregister hphase | openFinished hphase
  | openJoined hphase =>
      rw [hphase] at hs
      cases hs

theorem isOpen_of_step {e : ClientEvent} (h : s.step e = some (t, fx))
    (ht : t.phase.isOpen = true) : s.phase.isOpen = true := by
  rw [← Bool.not_eq_false]
  intro hs
  rw [(step_closed hs h).2.1] at ht
  cases ht

/-- Commands are taken in the select loop only. -/
theorem ready_of_command {c : ClientCommand} {o : WriteOutcome} {now : Instant}
    (h : s.step (.command c o now) = some (t, fx)) : s.phase = .ready := by
  cases did_of_step h with
  | register hready | unregister hready => exact hready

theorem phase_onIncoming (s : Client) (m : Message) (o : WriteOutcome) :
    (s.onIncoming m o).1.phase = s.phase ∨ (s.onIncoming m o).1.phase.isOpen = false := by
  unfold onIncoming
  split
  · rename_i frame
    refine .inl ?_
    unfold onOpen
    dsimp only
    split
    · exact phase_trySend _ _
    · split_ifs
      · rfl
      · exact phase_trySend _ _
  · exact .inl (phase_trySend _ _)
  · rename_i pong
    refine .inl ?_
    unfold onPong
    dsimp only
    split
    · split_ifs <;> rfl
    · rfl
  · unfold onRegisterAck
    split
    · exact .inr rfl
    all_goals exact .inl rfl
  · unfold onError
    split
    · exact .inl rfl
    · exact .inr rfl
  · unfold onRegisterReject
    split_ifs
    · split
      · exact .inl rfl
      · exact .inl rfl
      · exact .inr rfl
    · exact .inr rfl
  · exact .inr rfl
  · exact .inr rfl

theorem phase_onRegister (s : Client) (service : ClientService) (caller : CallerId)
    (o : WriteOutcome) (now : Instant) :
    (s.onRegister service caller o now).1.phase = s.phase ∨
    (s.onRegister service caller o now).1.phase.isOpen = false := by
  unfold onRegister
  split_ifs
  · exact .inl rfl
  · exact .inl rfl
  · split
    · exact .inl rfl
    · unfold writeRegistration
      dsimp only
      split
      · exact .inl rfl
      · split
        · exact .inr rfl
        · exact .inl rfl
      · exact .inr rfl

theorem phase_onUnregister (s : Client) (id : ServiceId) (caller : CallerId)
    (o : WriteOutcome) :
    (s.onUnregister id caller o).1.phase = s.phase ∨
    (s.onUnregister id caller o).1.phase.isOpen = false := by
  unfold onUnregister
  dsimp only
  split
  · split
    · exact .inl rfl
    · exact .inr rfl
  · exact .inl rfl

theorem phase_onDeadline (s : Client) (now : Instant) :
    (s.onDeadline now).1.phase = s.phase ∨ (s.onDeadline now).1.phase.isOpen = false := by
  unfold onDeadline
  split
  · exact .inr rfl
  · exact .inl rfl

theorem phase_onOutbound (s : Client) (m : Message) (rest : List Message) (o : WriteOutcome) :
    (s.onOutbound m rest o).1.phase = s.phase ∨
    (s.onOutbound m rest o).1.phase.isOpen = false := by
  unfold onOutbound
  dsimp only
  split
  · exact .inl rfl
  · exact .inr rfl

/-- The select loop does not fall back to the initial exchange. -/
theorem ready_of_step (hready : s.phase = .ready) {e : ClientEvent}
    (h : s.step e = some (t, fx)) (ht : t.phase.isOpen = true) : t.phase = .ready := by
  have hfrom (hor : t.phase = s.phase ∨ t.phase.isOpen = false) : t.phase = .ready := by
    rcases hor with heq | hclosed
    · exact heq.trans hready
    · rw [hclosed] at ht
      cases ht
  have hpair {r : Client × Effects} (heq : r = (t, fx))
      (hor : r.1.phase = s.phase ∨ r.1.phase.isOpen = false) : t.phase = .ready := by
    rw [heq] at hor
    exact hfrom hor
  cases did_of_step h with
  | incoming _ heq => exact hpair heq (s.phase_onIncoming _ _)
  | register _ heq => exact hpair heq (s.phase_onRegister _ _ _ _)
  | unregister _ heq => exact hpair heq (s.phase_onUnregister _ _ _)
  | registrationDeadline _ heq => exact hpair heq (s.phase_onDeadline _)
  | outbound _ _ heq => exact hpair heq (s.phase_onOutbound _ _ _)
  | cancelled _ heq => exact hpair heq (.inr rfl)
  | cancelRequested | callerGone | openJoined => exact hready
  | readFailed => exact hfrom (.inr rfl)
  | heartbeatTick =>
      refine hfrom (.inl ?_)
      unfold onHeartbeatTick
      split_ifs <;> rfl
  | openFinished => exact hfrom (.inl (s.phase_onOpenFinished _ _))
  | registerNext hphase | initialResponse hphase | initialReadFailed hphase | openDrained hphase
  | tornDown hphase => cases hready.symm.trans hphase

/-- **The branches of the initial exchange.** -/
theorem step_registering {todo : List ClientService} {sent : Bool} {e : ClientEvent}
    (hphase : s.phase = .registering todo sent) (h : s.step e = some (t, fx)) :
    (e.isOwn = true ∧ Kept s t ∧ t.phase = s.phase ∧ t.outbox = s.outbox ∧ fx = {}) ∨
    (∃ service rest o, e = .registerNext o ∧ todo = service :: rest ∧ sent = false ∧
      s.registerNext service rest o = (t, fx)) ∨
    (∃ service rest m o, e = .incoming m o ∧ todo = service :: rest ∧ sent = true ∧
      t = s.initialResponse service rest m ∧ fx = {}) ∨
    (∃ err, e = .readFailed err ∧
      t = { s with phase := .returned (.error err.toTunnelError) } ∧ fx = {}) := by
  cases did_of_step h with
  | cancelRequested | callerGone =>
      exact .inl ⟨rfl, ⟨⟨rfl, rfl, rfl, fun _ => .inl⟩, rfl, rfl⟩, rfl, rfl, rfl⟩
  | registerNext hphase' heq =>
      cases hphase.symm.trans hphase'
      exact .inr (.inl ⟨_, _, _, rfl, rfl, rfl, heq⟩)
  | initialResponse hphase' =>
      cases hphase.symm.trans hphase'
      exact .inr (.inr (.inl ⟨_, _, _, _, rfl, rfl, rfl, rfl, rfl⟩))
  | initialReadFailed => exact .inr (.inr (.inr ⟨_, rfl, rfl, rfl⟩))
  | incoming hphase' | readFailed hphase' | cancelled hphase' | heartbeatTick hphase'
  | registrationDeadline hphase' | outbound hphase' | register hphase' | unregister hphase'
  | openFinished hphase' | openJoined hphase' | openDrained hphase' | tornDown hphase' =>
      cases hphase.symm.trans hphase'

/-- What holds of the client until it leaves its loop. -/
structure Sound (correlated : Bool) (s : Client) : Prop where
  mode : s.correlated = correlated
  outbox : ∀ m ∈ s.outbox, m.isChatter = true
  consistent : s.services.Consistent s.correlated s.generation
  initial : s.phase ≠ .ready → s.services.transactions = [] ∧ s.services.abandoned = ∅

variable {correlated : Bool}

theorem Sound.frame (hs : Sound correlated s) (hf : Frame s t)
    (hc : t.services.Consistent s.correlated s.generation) (ht : t.phase = .ready) :
    Sound correlated t where
  mode := hf.correlated.trans hs.mode
  outbox m hm := (hf.outbox m hm).elim (hs.outbox m) id
  consistent := by
    rw [hf.correlated, hf.generation]
    exact hc
  initial hne := absurd ht hne

/-- With every desired Service acknowledged, the desired ones become active. -/
theorem Sound.becomeReady (hs : Sound correlated s) : Sound correlated s.becomeReady :=
  hs.frame ⟨rfl, rfl, rfl, fun _ => .inl⟩
    { hs.consistent with
      desired := by
        intro id service h
        obtain ⟨other, hmem, heq⟩ := List.mem_map.mp (Table.mem_of_lookup_ofList h)
        cases heq
        exact ⟨rfl, hmem⟩ } rfl

theorem Sound.continueRegistering (hs : Sound correlated s) (hinitial : s.phase ≠ .ready)
    (todo : List ClientService) : Sound correlated (s.continueRegistering todo) := by
  unfold Client.continueRegistering
  split
  · exact hs.becomeReady
  · exact ⟨hs.mode, hs.outbox, hs.consistent, fun _ => hs.initial hinitial⟩

/-- How a Session starts: not at all, or sound and with the exchange before
it, and what the last Session left is answered. -/
theorem start_cases (policy : RuntimePolicy) (sessionId : SessionId) (correlated : Bool)
    (services : ServiceState) (counters : Counters) (closed : List CallerId) :
    (¬ counters.sessionGeneration + 1 < 2 ^ 64 ∧
      (start policy sessionId correlated services counters closed).1.phase.isOpen = false ∧
      (start policy sessionId correlated services counters closed).1.services = services ∧
      (start policy sessionId correlated services counters closed).2 = {}) ∨
    ∃ s : Client, start policy sessionId correlated services counters closed
        = (s.continueRegistering services.desired,
          { answers := (services.finishPending .disconnected).2 }) ∧
      Sound correlated s ∧ s.phase ≠ .ready ∧ s.services.desired = services.desired ∧
      s.services.active = ∅ ∧ s.counters.binds = counters.binds := by
  unfold Client.start
  dsimp only
  split
  · rename_i e hbegin
    unfold Counters.beginSession at hbegin
    split_ifs at hbegin with hspent
    exact .inl ⟨hspent, rfl, rfl, rfl⟩
  · rename_i generation counters' hbegin
    refine .inr ⟨_, rfl, ⟨rfl, by simp, ⟨?_, ?_, ?_, ?_, ?_, ?_⟩, fun _ => ⟨rfl, rfl⟩⟩,
      by simp, rfl, rfl, ?_⟩
    · rintro rfl
      exact ⟨rfl, rfl⟩
    · rintro rfl
      exact ⟨rfl, _, rfl⟩
    · intro id txn htxn
      cases htxn
    · intro txn htxn
      cases htxn
    · intro id g htomb
      cases htomb
    · intro id service hactive
      cases hactive
    · unfold Counters.beginSession at hbegin
      split_ifs at hbegin
      cases hbegin
      rfl

theorem Sound.start (policy : RuntimePolicy) (sessionId : SessionId) (correlated : Bool)
    (services : ServiceState) (counters : Counters) (closed : List CallerId)
    (ht : (start policy sessionId correlated services counters closed).1.phase.isOpen
      = true) :
    Sound correlated (start policy sessionId correlated services counters closed).1 := by
  rcases start_cases policy sessionId correlated services counters closed with ⟨-, hclosed, -⟩ |
    ⟨s, hs, hsound, hphase, -⟩
  · rw [hclosed] at ht
    cases ht
  · rw [hs]
    exact hsound.continueRegistering hphase services.desired

theorem Sound.counters (hs : Sound correlated s) (counters : Counters) :
    Sound correlated { s with counters := counters } := ⟨hs.mode, hs.outbox, hs.consistent, hs.initial⟩

/-- The exchange keeps the client sound. -/
theorem Sound.step_registering (hs : Sound correlated s) {todo : List ClientService} {sent : Bool}
    {e : ClientEvent} (hphase : s.phase = .registering todo sent)
    (h : s.step e = some (t, fx)) (ht : t.phase.isOpen = true) : Sound correlated t := by
  have hinitial : s.phase ≠ .ready := by simp [hphase]
  rcases Client.step_registering hphase h with ⟨-, hkept, hsame, hout, -⟩ |
    ⟨service, rest, o, -, -, -, hnext⟩ | ⟨service, rest, m, o, -, -, -, rfl, -⟩ | ⟨err, -, hr, -⟩
  · refine ⟨hkept.correlated.trans hs.mode, hout ▸ hs.outbox, ?_, fun _ => hkept.services ▸ hs.initial hinitial⟩
    rw [hkept.services, hkept.correlated, hkept.generation]
    exact hs.consistent
  · unfold Client.registerNext at hnext
    dsimp only at hnext
    split at hnext
    · obtain ⟨rfl, rfl⟩ := Prod.mk.inj hnext
      exact ⟨hs.mode, hs.outbox, hs.consistent, fun _ => hs.initial hinitial⟩
    · obtain ⟨rfl, rfl⟩ := Prod.mk.inj hnext
      cases ht
  · unfold initialResponse at ht ⊢
    split at ht
    · split_ifs at ht with hid
      · rw [if_pos hid]
        apply Sound.continueRegistering
        · exact hs.counters _
        · exact hinitial
      · cases ht
    · cases ht
  · rw [hr] at ht
    cases ht

/-- The branch that reads a frame keeps the client sound. -/
theorem Sound.onIncoming (hs : Sound correlated s) (hready : s.phase = .ready) {m : Message}
    (h : s.onIncoming m o = (t, fx)) (ht : t.phase = .ready) : Sound correlated t := by
  have hsame : t.phase = s.phase := ht.trans hready.symm
  have hkept {u : Client} (hu : Kept s u) (heq : (u, {}) = (t, fx)) : Sound correlated t := by
    obtain ⟨rfl, rfl⟩ := Prod.mk.inj heq
    exact hs.frame hu.toFrame (hu.services ▸ hs.consistent) ht
  unfold Client.onIncoming at h
  split at h
  · exact hkept (s.kept_onOpen _) h
  · exact hkept ((Kept.refl s).trySend rfl) h
  · exact hkept (s.kept_onPong _) h
  · obtain ⟨hf, hc, -⟩ := onRegisterAck_cases hs.consistent h
    exact hs.frame hf (hc hsame hready) ht
  · rcases hmode : s.correlated with - | -
    · obtain ⟨hf, hc, -⟩ := onError_cases hmode ⟨0⟩ hs.consistent h
      exact hs.frame hf (hc hsame hready).1 ht
    · -- the slot is empty in the correlated mode
      simp only [onError, ServiceState.reject, (hs.consistent.bounded hmode).1,
        Option.map_none] at h
      obtain ⟨rfl, rfl⟩ := Prod.mk.inj h
      cases ht
  · rcases hmode : s.correlated with - | -
    · simp only [onRegisterReject, hmode, Bool.false_eq_true, if_false] at h
      obtain ⟨rfl, rfl⟩ := Prod.mk.inj h
      cases ht
    · obtain ⟨hf, hc, -⟩ := onRegisterReject_cases hmode hs.consistent h
      exact hs.frame hf (hc hsame hready).1 ht
  · obtain ⟨rfl, rfl⟩ := Prod.mk.inj h
    cases ht
  · obtain ⟨rfl, rfl⟩ := Prod.mk.inj h
    cases ht

/-- **The client is sound until it leaves its loop.** -/
theorem Sound.step (hs : s.phase.isOpen = true → Sound correlated s) {e : ClientEvent}
    (h : s.step e = some (t, fx)) (ht : t.phase.isOpen = true) : Sound correlated t := by
  replace hs := hs (isOpen_of_step h ht)
  rcases hphase : s.phase with ⟨todo, sent⟩ | - | timedOut | result
  · exact hs.step_registering hphase h ht
  · have hready := ready_of_step hphase h ht
    cases did_of_step h with
    | incoming _ heq => exact hs.onIncoming hphase heq hready
    | initialResponse hphase' => cases hphase.symm.trans hphase'
    | register _ heq =>
        obtain ⟨hf, -, hc, -⟩ := onRegister_ready hs.consistent heq hready
        exact hs.frame hf hc hready
    | unregister _ heq =>
        obtain ⟨hf, hc, -⟩ := onUnregister_ready hs.consistent heq hready
        exact hs.frame hf hc hready
    | _ =>
        rcases step_own hphase rfl hs.outbox h with ⟨hk, -⟩ | ⟨now, x, -, hexp, -, hf, -, hx⟩
        · exact hs.frame hk.toFrame (hk.services ▸ hs.consistent) hready
        · refine hs.frame hf ?_ hready
          have hc := hs.consistent
          rcases hmode : s.correlated with - | -
          · rw [hmode] at hc
            rw [(ServiceState.expireOverdue_serial hc now hexp (hx hready)).1]
            exact hc
          · rw [hmode] at hc
            exact (ServiceState.expireOverdue_correlated hc now hexp).2.1
  all_goals
    have hopen := isOpen_of_step h ht
    rw [hphase] at hopen
    cases hopen

end Client

end Eggtunnel
