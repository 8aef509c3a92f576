/-
Eggtunnel/Attribution.lean

Which caller is told what.

A caller is told the server's verdict on a frame, and the question is whether
the frame was that caller's own.  `Logged` ties the frames and the verdicts of
a link to what the callers asked for; it holds in every run.

* `single_flight`: when the serial mode has at most one request outstanding,
  and its refusals reach the caller they are for.
* `answers_attributed`: when an answer that names its Service reaches the
  caller whose request it answers.
-/
import Eggtunnel.Registration

namespace Eggtunnel

/-! ### Failures the client reports on its own -/

namespace Client

variable {s t : Client} {fx : Effects}

theorem failures_onRegister (s : Client) (service : ClientService) (caller : CallerId)
    (o : WriteOutcome) (now : Instant) : Failures (s.onRegister service caller o now).2.answers := by
  unfold onRegister
  split_ifs
  · exact Failures.answer .resourceExhausted (some caller)
  · exact Failures.nil
  · split
    · exact Failures.answer _ (some caller)
    · unfold writeRegistration
      dsimp only
      split
      · exact Failures.nil
      · split
        · exact Failures.answer _ _
        · exact ServiceState.failures_abandon _ _
      · exact Failures.nil

theorem failures_onUnregister (s : Client) (id : ServiceId) (caller : CallerId)
    (o : WriteOutcome) : Failures (s.onUnregister id caller o).2.answers := by
  have hf := s.services.failures_unregister id
  unfold onUnregister
  dsimp only
  split
  · rename_i heq
    rw [heq] at hf
    split <;> exact hf
  · rename_i heq
    rw [heq] at hf
    exact hf

/-- **Without a frame to read, the client has only failures to report.** -/
theorem failures_of_step {e : ClientEvent}
    (houtbox : s.phase.isOpen = true → ∀ m ∈ s.outbox, m.isChatter = true) (he : ∀ m o, e ≠ .incoming m o)
    (h : s.step e = some (t, fx)) : Failures fx.answers := by
  have hnil (hfx : fx.answers = []) : Failures fx.answers := by
    rw [hfx]
    exact Failures.nil
  cases did_of_step h with
  | incoming | initialResponse => exact absurd rfl (he _ _)
  | registerNext _ heq =>
      unfold registerNext at heq
      dsimp only at heq
      split at heq <;>
      · obtain ⟨rfl, rfl⟩ := Prod.mk.inj heq
        exact Failures.nil
  | @register service caller o now _ _ _ heq =>
      have hf := s.failures_onRegister service caller o now
      rwa [heq] at hf
  | @unregister id caller o _ _ _ _ heq =>
      have hf := s.failures_onUnregister id caller o
      rwa [heq] at hf
  | cancelled hready | registrationDeadline hready | outbound hready =>
      rcases step_own hready rfl (houtbox (by rw [hready]; rfl)) h with
        ⟨-, hfx, -⟩ | ⟨now, x, -, hexp, -⟩
      · exact hnil hfx
      · have hf := s.services.failures_expireOverdue now
        rwa [hexp] at hf
  | tornDown hphase => exact (step_closed (by rw [hphase]; rfl) h).2.2.2
  | _ => exact Failures.nil

theorem mem_onRegister_writes {service : ClientService} {caller : CallerId} {o : WriteOutcome}
    {now : Instant} {w : Write} (hw : w ∈ (s.onRegister service caller o now).2.writes) :
    w.1 = .registerService service.registration := by
  unfold onRegister at hw
  split_ifs at hw
  · cases hw
  · cases hw
  · split at hw
    · cases hw
    · unfold writeRegistration at hw
      dsimp only at hw
      split at hw
      · rw [List.mem_singleton.mp hw]
      · split at hw <;> rw [List.mem_singleton.mp hw]
      · rw [List.mem_singleton.mp hw]

end Client

namespace Link

variable {s t : Link}

/-! ### The logs of a link -/

/-- The request of a caller is for the Service that caller asked for. -/
def Asked (s : Link) (r : Request) : Prop :=
  ∀ caller, r.caller = some caller →
    ∃ service, s.requested.lookup caller = some service ∧ r.item = service.registration

/-- What holds of the frames, the verdicts and the answers in every run. -/
structure Logged (s : Link) : Prop where
  wired : Wired s
  callers : ∀ p ∈ s.requested, p.1 < s.nextCaller
  up : ∀ p ∈ s.up, ∀ r, p.about = some r → s.Asked r
  down : ∀ p ∈ s.down, ∀ r, p.about = some r → s.Asked r
  verdicts : ∀ v ∈ s.verdicts, s.Asked v.1 ∧
    ∃ d, v.2 = Server.response s.server.negotiated v.1.item.serviceId d
  loop : ∀ a, (Source.loop, a) ∈ s.answers → ∃ e, a.2 = .error e

theorem Logged.init (c : LinkConfig) : Logged (init c) := by
  refine ⟨Wired.init c, ?_, ?_, ?_, ?_, ?_⟩ <;> simp [Link.init]

/-- A step of the client that asks for nothing, or only for what was logged. -/
theorem Logged.clientStep (hl : Logged s) {e : ClientEvent}
    {caller : Option CallerId} {source : Source}
    (hnew : ∀ c fx register, s.client.step e = some (c, fx) →
      (.registerService register, .done) ∈ fx.writes → s.Asked ⟨register, caller⟩)
    (hsource : source = .loop → ∀ m o, e ≠ .incoming m o)
    (h : s.clientStep e caller source = some t) : Logged t := by
  have hw := hl.wired.clientStep h
  obtain ⟨c, fx, packets, hstep, hcarry, rfl⟩ := clientStep_eq_some h
  refine ⟨hw, hl.callers, fun p hp r hr => ?_, hl.down, hl.verdicts, fun a ha => ?_⟩
  · rcases List.mem_append.mp hp with hp | hp
    · exact hl.up p hp r hr
    · obtain ⟨m, hmem, rfl⟩ := mem_carry hcarry p hp
      cases m with
      | registerService register =>
          obtain rfl := Option.some.inj hr
          exact hnew c fx register hstep hmem
      | _ => cases hr
  · rcases List.mem_append.mp ha with ha | ha
    · exact hl.loop a ha
    · obtain ⟨b, hb, heq⟩ := List.mem_map.mp ha
      obtain ⟨hs, rfl⟩ := Prod.mk.inj heq
      exact Client.failures_of_step (fun hs => (hl.wired.client hs).outbox) (hsource hs) hstep b hb

/-- A frame of the client's own makes a request for nobody. -/
theorem asked_none (s : Link) (register : RegisterService) : s.Asked ⟨register, none⟩ :=
  fun _ hc => by cases hc

theorem Asked.log {r : Request} {p : CallerId × ClientService} (h : s.Asked r)
    {next : CallerId} :
    ({ s with nextCaller := next, requested := s.requested ++ [p] } : Link).Asked r := by
  intro caller hc
  obtain ⟨service, hlookup, hitem⟩ := h caller hc
  refine ⟨service, ?_, hitem⟩
  dsimp only
  rw [List.lookup_append, hlookup]
  rfl

/-- A caller's command is logged before it is carried out. -/
theorem Logged.log (hl : Logged s) (service : ClientService) :
    Logged { s with
      nextCaller := s.nextCaller + 1
      requested := s.requested ++ [(s.nextCaller, service)] } where
  wired := ⟨hl.wired.up, hl.wired.down, hl.wired.queue, hl.wired.client⟩
  callers p hp := by
    rcases List.mem_append.mp hp with hp | hp
    · exact (hl.callers p hp).trans (Nat.lt_succ_self _)
    · rw [List.mem_singleton.mp hp]
      exact Nat.lt_succ_self _
  up p hp r hr := (hl.up p hp r hr).log
  down p hp r hr := (hl.down p hp r hr).log
  verdicts v hv := ⟨(hl.verdicts v hv).1.log, (hl.verdicts v hv).2⟩
  loop := hl.loop

theorem Logged.lookup_next (hl : Logged s) : s.requested.lookup s.nextCaller = none := by
  rw [List.lookup_eq_none_iff]
  intro p hp
  exact bne_iff_ne.mpr (Nat.ne_of_gt (hl.callers p hp))

theorem Logged.serverStep (hl : Logged s) {e : ServerEvent} (hown : e.isOwn = true)
    (h : s.serverStep e = some t) : Logged t := by
  have hw := hl.wired.serverStep hown h
  obtain ⟨v, writes, packets, hstep, hcarry, rfl⟩ := serverStep_eq_some h
  have hneg := (Server.step_own hown hl.wired.queue hstep).1.negotiated
  refine ⟨hw, hl.callers, hl.up, fun p hp r hr => ?_, ?_, hl.loop⟩
  · rcases List.mem_append.mp hp with hp | hp
    · exact hl.down p hp r hr
    · obtain ⟨m, -, rfl⟩ := mem_carry hcarry p hp
      cases hr
  · dsimp only
    rw [hneg]
    exact hl.verdicts

/-- The server answers what was asked. -/
theorem Logged.serve (hl : Logged s) {os : BindOutcome} {o : WriteOutcome}
    (h : s.step (.serve os o) = some t) : Logged t := by
  have hneg := negotiated_of_step hl.wired h
  have hw := hl.wired.step h
  simp only [step] at h
  split at h
  · rename_i packet up hup
    obtain ⟨v, writes, packets, -, hcarry, rfl⟩ := serveStep_eq_some h
    have hasked {p : Packet} (hp : p ∈ packets) {r : Request} (hr : p.about = some r) :
        s.Asked r := by
      obtain ⟨m, -, rfl⟩ := mem_carry hcarry p hp
      exact hl.up packet (hup ▸ List.mem_cons_self) r hr
    refine ⟨hw, hl.callers, fun p hp => ?_, fun p hp r hr => ?_, fun v hv => ?_, hl.loop⟩
    · dsimp only at hp
      split_ifs at hp
      · exact hl.up p hp
      · exact hl.up p (hup ▸ List.mem_cons_of_mem _ hp)
    · rcases List.mem_append.mp hp with hp | hp
      · exact hl.down p hp r hr
      · exact hasked hp hr
    · rcases List.mem_append.mp hv with hv | hv
      · dsimp only at hneg ⊢
        rw [hneg]
        exact hl.verdicts v hv
      · obtain ⟨p, hp, hpv⟩ := List.mem_filterMap.mp hv
        obtain ⟨r, hr, rfl⟩ := Option.map_eq_some_iff.mp hpv
        refine ⟨hasked hp hr, ?_⟩
        rcases hw.down p (List.mem_append_right _ hp) with ⟨r', d, rfl⟩ | ⟨hnone, -⟩
        · obtain rfl := Option.some.inj hr
          exact ⟨d, rfl⟩
        · rw [hr] at hnone
          cases hnone
  · cases h

/-- **The logs agree with the frames in every run.** -/
theorem Logged.step (hl : Logged s) {e : LinkEvent} (h : s.step e = some t) : Logged t := by
  have hw := hl.wired
  cases e with
  | serve os o => exact hl.serve h
  | server e =>
      simp only [Link.step] at h
      split_ifs at h with hown
      exact hl.serverStep hown h
  | register service o now =>
      refine Logged.clientStep (hl.log service) (fun c fx register hstep hmem => ?_)
        (fun _ m o => by simp) h
      -- what is written is the registration that was just logged
      have hphase : s.client.phase = .ready := Client.ready_of_command hstep
      simp only [Client.step, hphase] at hstep
      have hreg := Client.mem_onRegister_writes (s := s.client) (by rw [Option.some.inj hstep]; exact hmem)
      intro caller hc
      obtain rfl := Option.some.inj hc
      refine ⟨service, ?_, Message.registerService.inj hreg⟩
      dsimp only
      rw [List.lookup_append, hl.lookup_next]
      simp
  | unregister id o now =>
      exact Logged.clientStep (s := { s with nextCaller := s.nextCaller + 1 })
        ⟨⟨hw.up, hw.down, hw.queue, hw.client⟩,
          fun p hp => (hl.callers p hp).trans (Nat.lt_succ_self _), hl.up, hl.down, hl.verdicts,
          hl.loop⟩ (fun _ _ _ _ _ => asked_none _ _)
        (fun _ m o => by simp) h
  | deliver o =>
      simp only [Link.step] at h
      split at h
      · rename_i packet down hdown
        have hrest {p : Packet} (hp : p ∈ down) : p ∈ s.down := hdown ▸ List.mem_cons_of_mem _ hp
        exact Logged.clientStep (s := { s with down := down })
          ⟨⟨hw.up, fun p hp => hw.down p (hrest hp), hw.queue, hw.client⟩, hl.callers, hl.up,
            fun p hp => hl.down p (hrest hp), hl.verdicts, hl.loop⟩
          (fun _ _ _ _ _ => asked_none _ _) (fun hs => by cases hs) h
      · cases h
  | client e =>
      simp only [Link.step] at h
      split_ifs at h with hown
      refine hl.clientStep (fun _ _ _ _ _ => asked_none _ _) (fun _ m o => ?_) h
      rintro rfl
      cases hown

theorem logged_exec {c : LinkConfig} {es : List LinkEvent}
    (h : exec Link.step (init c) es = some s) : Logged s :=
  exec_inv_of_step (fun _ _ _ hl hstep => hl.step hstep) (Logged.init c) h

/-- The server decided `d` on the own request of `caller`. -/
def Ruled (s : Link) (caller : CallerId) (d : Verdict) : Prop :=
  ∃ service, s.requested.lookup caller = some service ∧
    (⟨service.registration, some caller⟩, Server.response s.server.negotiated service.id d)
      ∈ s.verdicts

/-- What a caller was told in response is the verdict on its own request. -/
theorem Logged.ruled (hl : Logged s) (ha : Enrol.Attributed s.view) {caller : CallerId}
    {result : Except TunnelError EffectiveBind}
    (h : (Source.response, caller, result) ∈ s.answers) :
    ∃ d, s.Ruled caller d ∧ ∃ id, (Server.response s.server.negotiated id d).result = result := by
  obtain ⟨r, hr, hmem⟩ := ha (some caller, result) (List.mem_filterMap.mpr ⟨_, h, rfl⟩)
  replace hr : r.caller = some caller := hr
  obtain ⟨v, hv, heq⟩ := List.mem_map.mp hmem
  obtain ⟨rfl, rfl⟩ := Prod.mk.inj heq
  obtain ⟨hasked, d, hd⟩ := hl.verdicts v hv
  obtain ⟨service, hlookup, hitem⟩ := hasked caller hr
  refine ⟨d, ⟨service, hlookup, ?_⟩, _, congrArg Message.result hd.symm⟩
  have hid : v.1.item.serviceId = service.id := congrArg RegisterService.serviceId hitem
  rw [← hid, ← hd, ← hitem, ← hr]
  exact hv

theorem result_accepted {negotiated : Capabilities} {id : ServiceId} {d : Verdict}
    {b : EffectiveBind} (h : (Server.response negotiated id d).result = .ok b) :
    d = .accepted b := by
  cases d with
  | accepted b' => exact congrArg Verdict.accepted (Except.ok.inj h)
  | refused code =>
      unfold Server.response at h
      dsimp only at h
      split_ifs at h <;> cases h

theorem result_refused {negotiated : Capabilities} {id : ServiceId} {d : Verdict}
    {e : TunnelError} (h : (Server.response negotiated id d).result = .error e) :
    ∃ code, d = .refused code ∧ e = Client.registrationErrorCode code := by
  cases d with
  | accepted b => cases h
  | refused code =>
      refine ⟨code, rfl, ?_⟩
      unfold Server.response at h
      dsimp only at h
      split_ifs at h <;> exact (Except.error.inj h).symm

/-- A caller that is told of a refusal was refused. -/
theorem Logged.refused (hl : Logged s) (ha : Enrol.Attributed s.view) {caller : CallerId}
    {e : TunnelError} (h : (Source.response, caller, .error e) ∈ s.answers) :
    ∃ code, s.Ruled caller (.refused code) ∧ e = Client.registrationErrorCode code := by
  obtain ⟨d, hruled, id, hresult⟩ := hl.ruled ha h
  obtain ⟨code, rfl, he⟩ := result_refused hresult
  exact ⟨code, hruled, he⟩

/-- A caller that is told of an acceptance was accepted. -/
theorem Logged.accepted (hl : Logged s) (ha : Enrol.Attributed s.view) {source : Source}
    {caller : CallerId} {b : EffectiveBind} (h : (source, caller, .ok b) ∈ s.answers) :
    s.Ruled caller (.accepted b) := by
  cases source with
  | loop =>
      obtain ⟨e, he⟩ := hl.loop _ h
      cases he
  | response =>
      obtain ⟨d, hruled, id, hresult⟩ := hl.ruled ha h
      obtain rfl := result_accepted hresult
      exact hruled

/-- Attribution outlasts the Session. -/
theorem Closing.attributed {a b : LinkView} (h : Closing a b) (ha : Enrol.Attributed a) :
    Enrol.Attributed b := by
  intro p hp
  rw [h.told] at hp
  obtain ⟨r, hr, hv⟩ := ha p hp
  exact ⟨r, hr, h.verdicts _ hv⟩

/-- Nobody has been told anything yet. -/
theorem attributed_of_answers (h : s.answers = []) : Enrol.Attributed s.view := by
  intro p hp
  simp [view, h] at hp

/-! ### The serial mode -/

/-- The steps that keep the serial mode to one request: a registration is made
only while no cancelled one may still be answered. -/
def serialized (s : Link) : LinkEvent → Bool
  | .register service _ _ =>
      !s.client.admits service s.nextCaller || decide (s.client.services.abandoned.size = 0)
  | _ => true

/-- A serial Session has one request outstanding at most. -/
abbrev SingleFlight (s : Link) : Prop :=
  Enrol.SingleFlight (·.serviceId) (s.client.correlated = false) s.view

theorem Fresh.singleFlight (hf : Fresh s) : SingleFlight s where
  owned := hf.owned _
  covered := hf.placed.covered
  single := by
    rw [hf.outstanding]
    exact Nat.zero_le 1
  attributed := attributed_of_answers hf.answers

theorem dead_of_serialized {service : ClientService} {o : WriteOutcome} {now : Instant}
    (hse : s.serialized (.register service o now) = true)
    (hadmits : s.client.admits service s.nextCaller = true) : s.view.dead = ∅ := by
  rw [serialized, hadmits, Bool.not_true, Bool.false_or, decide_eq_true_eq] at hse
  ext k
  simp [view, ServiceState.mem_dead, Table.lookup_eq_none_of_size hse]

theorem SingleFlight.step (hf : SingleFlight s) (hw : Wired s)
    (hserial : s.client.correlated = false) {e : LinkEvent} (hse : s.serialized e = true)
    (h : s.step e = some t) (hs : s.client.phase = .ready) (ht : t.client.phase = .ready) :
    SingleFlight t := by
  obtain ⟨m, hmove, hcause⟩ := refines_step hw hs h ht
  rw [SingleFlight, correlated_of_step hw h hs ht]
  refine Enrol.SingleFlight.step hf hserial ?_ ?_ hmove
  · rintro r rfl
    obtain ⟨service, o, now, rfl, hadmits, -⟩ := hcause
    exact dead_of_serialized hse hadmits
  · rintro k rfl
    obtain ⟨service, o, now, rfl, hadmits, -⟩ := hcause
    exact dead_of_serialized hse hadmits

/-- One request in flight, and every caller told about its own. -/
structure InFlight (s : Link) : Prop where
  single : (Enrol.outstanding s.view).length ≤ 1
  attributed : Enrol.Attributed s.view

theorem Exchange.inFlight {todo : List ClientService} {sent : Bool} (hx : Exchange s todo sent) :
    InFlight s where
  single := by
    rw [hx.outstanding]
    unfold asked
    split <;> simp
  attributed := attributed_of_answers hx.answers

/-- **Single flight**: while no registration is made over a cancelled one that
may still be answered, the serial mode has at most one request unanswered, and
a caller that is told of a refusal was refused. -/
theorem single_flight (c : LinkConfig) (es : List LinkEvent)
    (hserial : c.negotiated.has capabilityRegisterReject = false)
    (hsteps : AllSteps Link.step (fun s e => s.serialized e = true) (init c) es)
    (hrun : exec Link.step (init c) es = some s) :
    s.requests.length ≤ 1 ∧
    ∀ caller e, (Source.response, caller, Except.error e) ∈ s.answers →
      ∃ code, s.Ruled caller (.refused code) ∧ e = Client.registrationErrorCode code := by
  have hinv : Always c (fun s => s.client.correlated = false ∧ SingleFlight s) InFlight s := by
    refine always_inv ?_ ?_ (fun s todo sent hx => hx.inFlight) ?_ ?_ ?_ hsteps hrun
    · intro s hw hneg hf hs
      refine ⟨?_, hf.singleFlight⟩
      rw [(hw.client (by rw [hs]; rfl)).mode, hneg]
      exact hserial
    · rintro s e t hw ⟨hmode, hf⟩ hse h hs ht
      exact ⟨(correlated_of_step hw h hs ht).trans hmode, hf.step hw hmode hse h hs ht⟩
    · rintro s ⟨-, hf⟩
      exact ⟨hf.single, hf.attributed⟩
    · intro s t hq hcl
      exact ⟨hcl.outstanding.trans hq.single, hcl.attributed hq.attributed⟩
    · exact ⟨by simp [Enrol.outstanding, view, init], attributed_of_answers rfl⟩
  have hl := logged_exec hrun
  exact ⟨hl.wired.outstanding ▸ hinv.always.single,
    fun caller e ha => hl.refused hinv.always.attributed ha⟩

/-- A registration is refused. -/
def plainRefusal : List LinkEvent :=
  [.register webService .done 0, .serve .bindFailed .done, .deliver .done]

/-- The link on which the caller has been told. -/
def refusalTold : Link :=
  (exec Link.step (init (smallLink legacyPeer [])) plainRefusal).get (by decide +kernel)

theorem single_flight_refusal :
    exec Link.step (init (smallLink legacyPeer [])) plainRefusal = some refusalTold ∧
    refusalTold.requests.length ≤ 1 ∧
    ∃ code, refusalTold.Ruled 0 (.refused code) ∧
      TunnelError.authorization = Client.registrationErrorCode code := by
  have hrun : exec Link.step (init (smallLink legacyPeer [])) plainRefusal = some refusalTold :=
    Option.eq_some_of_isSome _
  have hflight := single_flight (smallLink legacyPeer []) plainRefusal (by decide +kernel)
    (by decide +kernel) hrun
  have htold : refusalTold.answers = [(.response, 0, .error .authorization)] := rfl
  exact ⟨hrun, hflight.1, hflight.2 0 _ (htold ▸ List.mem_singleton_self _)⟩

/-- A registration is cancelled, another one is made, and the first one is
refused. -/
def cancelledThenRefused : List LinkEvent :=
  [.register webService .done 0, .unregister webService.id .done 0,
    .register mailService .done 0, .serve .bindFailed .done, .deliver .done]

/-- The link on which the second caller has been told. -/
def misdirectedRefusal : Link :=
  (exec Link.step (init (smallLink legacyPeer [])) cancelledThenRefused).get (by decide +kernel)

/-- **The serial mode is not single-flight**: cancelling a registration frees
the slot while its answer is still to come, and the refusal goes to the caller
that took the slot next, whose own request the server has not even read. -/
theorem cancel_breaks_single_flight :
    ¬ ∀ (c : LinkConfig) (es : List LinkEvent) (s : Link),
      c.negotiated.has capabilityRegisterReject = false →
      exec Link.step (init c) es = some s →
      s.requests.length ≤ 1 ∧
      ∀ caller e, (Source.response, caller, Except.error e) ∈ s.answers →
        ∃ code, s.Ruled caller (.refused code) ∧ e = Client.registrationErrorCode code := by
  intro h
  have hrun : exec Link.step (init (smallLink legacyPeer [])) cancelledThenRefused
      = some misdirectedRefusal := Option.eq_some_of_isSome _
  have htold : misdirectedRefusal.answers
      = [(.loop, 0, .error .cancelled), (.response, 2, .error .authorization)] := rfl
  obtain ⟨code, ⟨service, -, hmem⟩, -⟩ := (h _ _ _ (by decide +kernel) hrun).2 2 .authorization
    (by simp [htold])
  have hverdicts : misdirectedRefusal.verdicts.map (·.1) = [⟨webService.registration, some 0⟩] := by
    decide +kernel
  have hreq := List.mem_map_of_mem (f := (·.1)) hmem
  rw [hverdicts, List.mem_singleton] at hreq
  cases (congrArg Enrol.Request.caller hreq)

/-! ### The correlated mode -/

/-- The steps that keep the ids of unanswered requests apart: a registration
is made only for an id that has none. -/
def unrepeated (s : Link) : LinkEvent → Bool
  | .register service _ _ =>
      !s.client.admits service s.nextCaller ||
        s.requests.all (·.item.serviceId != service.id)
  | _ => true

/-- What lets an answer that names its Service find its own request. -/
structure Correlated (s : Link) : Prop where
  mode : s.client.correlated = true
  owned : Enrol.Owned (·.serviceId) (s.client.correlated = false) s.view
  distinct : Enrol.Distinct (·.serviceId) s.view
  attributed : Enrol.Attributed s.view

theorem Correlated.step (hco : Correlated s) (hw : Wired s) {e : LinkEvent}
    (hun : s.unrepeated e = true) (h : s.step e = some t) (hs : s.client.phase = .ready)
    (ht : t.client.phase = .ready) : Correlated t := by
  obtain ⟨m, hmove, hcause⟩ := refines_step hw hs h ht
  have hmode := correlated_of_step hw h hs ht
  have hmatch : Enrol.Matched (·.serviceId) (s.client.correlated = false) s.view :=
    Enrol.matched_of_distinct hco.owned hco.distinct (by simp [hco.mode])
  refine ⟨hmode.trans hco.mode, hmode ▸ hco.owned.step hmove, ?_,
    hco.attributed.step hco.owned hmatch hmove⟩
  refine hco.distinct.step hmove ?_
  rintro r rfl
  obtain ⟨service, o, now, rfl, hadmits, rfl⟩ := hcause
  have hplace : s.placeable (.register service o now) = true := hun
  exact placeable_register hw hplace hadmits

/-- **Attribution**: while no registration is made for an id whose earlier
request is unanswered, a caller of the correlated mode that is told of an
acceptance or a refusal is told the server's verdict on its own request. -/
theorem answers_attributed (c : LinkConfig) (es : List LinkEvent)
    (hcorrelated : c.negotiated.has capabilityRegisterReject = true)
    (hsteps : AllSteps Link.step (fun s e => s.unrepeated e = true) (init c) es)
    (hrun : exec Link.step (init c) es = some s) :
    (∀ source caller b, (source, caller, Except.ok b) ∈ s.answers →
      s.Ruled caller (.accepted b)) ∧
    ∀ caller e, (Source.response, caller, Except.error e) ∈ s.answers →
      ∃ code, s.Ruled caller (.refused code) ∧ e = Client.registrationErrorCode code := by
  have hinv : Always c Correlated (fun s => Enrol.Attributed s.view) s := by
    refine always_inv ?_ ?_ ?_ (fun s hco => hco.attributed) ?_ ?_ hsteps hrun
    · intro s hw hneg hf hs
      refine ⟨?_, hf.owned _, hf.distinct, attributed_of_answers hf.answers⟩
      rw [(hw.client (by rw [hs]; rfl)).mode, hneg]
      exact hcorrelated
    · intro s e t hw hco hun h hs ht
      exact hco.step hw hun h hs ht
    · intro s todo sent hx
      exact attributed_of_answers hx.answers
    · intro s t ha hcl
      exact hcl.attributed ha
    · exact attributed_of_answers rfl
  have hl := logged_exec hrun
  exact ⟨fun source caller b ha => hl.accepted hinv.always ha,
    fun caller e ha => hl.refused hinv.always ha⟩

/-- Another Service with the id of the web Service. -/
def newsService : ClientService :=
  ⟨webService.id, ⟨"news", by decide⟩, .loopback 0, ⟨"h", 119, by decide⟩⟩

/-- What a caller is told of `boundAt port`. -/
def loopbackAt (port : UInt16) : EffectiveBind := socketToEffective (.v6 localhostOctets port)

/-- A registration is accepted, given up, and the id registered again. -/
def acceptedTwice : List LinkEvent :=
  [.register webService .done 0, .serve (boundAt 1000) .done, .deliver .done,
    .unregister webService.id .done 0, .serve .bindFailed .done, .register newsService .done 0,
    .serve (boundAt 1001) .done, .deliver .done]

/-- The link on which both callers have been told. -/
def bothTold : Link :=
  (exec Link.step (init (smallLink correlatedPeer [])) acceptedTwice).get (by decide +kernel)

theorem answers_attributed_in_turn :
    exec Link.step (init (smallLink correlatedPeer [])) acceptedTwice = some bothTold ∧
    bothTold.Ruled 0 (.accepted (loopbackAt 1000)) ∧
    bothTold.Ruled 2 (.accepted (loopbackAt 1001)) := by
  have hrun : exec Link.step (init (smallLink correlatedPeer [])) acceptedTwice = some bothTold :=
    Option.eq_some_of_isSome _
  have hattr := (answers_attributed (smallLink correlatedPeer []) acceptedTwice (by decide +kernel)
    (by decide +kernel) hrun).1
  have htold : bothTold.answers = [(.response, 0, .ok (loopbackAt 1000)),
    (.response, 2, .ok (loopbackAt 1001))] := rfl
  exact ⟨hrun, hattr .response 0 _ (by simp [htold]), hattr .response 2 _ (by simp [htold])⟩

/-- A registration is cancelled and its id registered again before the first
request is answered. -/
def repeatedTooSoon : List LinkEvent :=
  [.register webService .done 0, .unregister webService.id .done 0,
    .register newsService .done 0, .serve (boundAt 1000) .done, .deliver .done]

/-- The link on which the second caller has been told. -/
def misdirectedAcceptance : Link :=
  (exec Link.step (init (smallLink correlatedPeer [])) repeatedTooSoon).get (by decide +kernel)

/-- **An answer that names its Service may still reach the wrong caller**: the
second registration of an id takes the acknowledgement of the first, and its
caller is told of an address that was bound for another name. -/
theorem repeated_id_misdirects_answer :
    ¬ ∀ (c : LinkConfig) (es : List LinkEvent) (s : Link),
      c.negotiated.has capabilityRegisterReject = true →
      exec Link.step (init c) es = some s →
      (∀ source caller b, (source, caller, Except.ok b) ∈ s.answers →
        s.Ruled caller (.accepted b)) ∧
      ∀ caller e, (Source.response, caller, Except.error e) ∈ s.answers →
        ∃ code, s.Ruled caller (.refused code) ∧ e = Client.registrationErrorCode code := by
  intro h
  have hrun : exec Link.step (init (smallLink correlatedPeer [])) repeatedTooSoon
      = some misdirectedAcceptance := Option.eq_some_of_isSome _
  have htold : misdirectedAcceptance.answers
      = [(.loop, 0, .error .cancelled), (.response, 2, .ok (loopbackAt 1000))] := rfl
  obtain ⟨service, -, hmem⟩ := (h _ _ _ (by decide +kernel) hrun).1 .response 2
    (loopbackAt 1000) (by simp [htold])
  have hverdicts : misdirectedAcceptance.verdicts.map (·.1)
      = [⟨webService.registration, some 0⟩] := by decide +kernel
  have hreq := List.mem_map_of_mem (f := (·.1)) hmem
  rw [hverdicts, List.mem_singleton] at hreq
  cases (congrArg Enrol.Request.caller hreq)

end Link

end Eggtunnel
