/-
Eggtunnel/Registration.lean

What a Session and its callers can rely on while registrations, cancellations
and answers cross on the link.

* `response_placed`: which schedules let the client place every answer.
* `agreement_at_quiescence`: with nothing on its way, the tables agree.

Both come from a rule of the enrolment, which `refines_step` and `ready_inv`
carry to the link.
-/
import Eggtunnel.Phases

namespace Eggtunnel

/-- The frame refuses a registration of `id`. -/
def Packet.refuses (p : Packet) (id : ServiceId) : Bool :=
  match p.answer with
  | some (r, .error _) => r.item.serviceId == id
  | _ => false

namespace Link

variable {s t : Link}

/-! ### Unanswered requests -/

/-- The requests whose answer the client has not read, oldest first. -/
def requests (s : Link) : List Request :=
  s.down.filterMap (·.about) ++ s.up.filterMap (·.about)

theorem Wired.outstanding (hw : Wired s) : Enrol.outstanding s.view = s.requests := by
  unfold Enrol.outstanding requests view
  dsimp only
  congr 1
  · rw [List.map_filterMap]
    congr 1
    funext p
    rw [Packet.answer]
    rcases p.about <;> rfl
  · -- a frame carries a request up exactly if it is a registration
    rw [List.filterMap_filterMap]
    refine List.filterMap_congr fun p hp => ?_
    rcases hw.up p hp with ⟨r, rfl⟩ | ⟨hnone, hne⟩
    · rfl
    · rw [hnone]
      unfold Packet.command
      split
      · exact absurd (by assumption) (hne _)
      · rfl
      · rfl

theorem Wired.mem_keys (hw : Wired s) {id : ServiceId} :
    id ∈ Enrol.keys (·.serviceId) s.view ↔ ∃ r ∈ s.requests, r.item.serviceId = id := by
  rw [Enrol.keys, hw.outstanding, List.mem_map]

/-- Nothing is owed in a fresh Session. -/
theorem Fresh.owned (hf : Fresh s) (serial : Prop) :
    Enrol.Owned (·.serviceId) serial s.view where
  key_live hk := by
    rw [hf.live] at hk
    cases hk
  mem_live hk := by
    rw [hf.live] at hk
    cases hk
  single _ _ _ _ _ hk := by
    rw [hf.live] at hk
    cases hk
  apart hk := by
    rw [hf.live] at hk
    cases hk
  decided := by
    have hnil := hf.outstanding
    rw [Enrol.outstanding, List.append_eq_nil_iff, List.map_eq_nil_iff] at hnil
    rw [hnil.1]
    simp

theorem Fresh.distinct (hf : Fresh s) : Enrol.Distinct (·.serviceId) s.view := by
  simp [Enrol.Distinct, Enrol.keys, hf.outstanding]

/-! ### Placing every answer -/

/-- The steps after which the client can still place every answer on its way:

* no registration is made for an id that has an unanswered request;
* no registration is cancelled while it waits, except in the serial mode, and
  there only while there is room for its tombstone and no refusal of it is on
  its way;
* no correlated registration times out;
* a peer without correlated refusals refuses only what the client still waits
  for. -/
def placeable (s : Link) : LinkEvent → Bool
  | .register service _ _ =>
      !s.client.admits service s.nextCaller ||
        s.requests.all (·.item.serviceId != service.id)
  | .unregister id _ _ =>
      (s.client.services.transaction id).isNone ||
        (!s.client.correlated && decide (s.client.services.abandoned.size < 256) &&
          s.down.all fun p => !p.refuses id)
  | .client (.registrationDeadline now) =>
      !s.client.correlated || s.client.services.transactions.all fun txn => !txn.overdue now
  | .serve os _ =>
      s.client.correlated ||
        match s.up with
        | ⟨.registerService register, about⟩ :: _ =>
            match (s.server.registerService register os).2 with
            | .accepted _ => true
            | .refused _ => decide (s.client.services.live register.serviceId = about)
        | _ => true
  | _ => true

/-- What lets the client place every answer. -/
structure Placed (s : Link) : Prop where
  owned : Enrol.Owned (·.serviceId) (s.client.correlated = false) s.view
  distinct : Enrol.Distinct (·.serviceId) s.view
  covered : Enrol.Covered (·.serviceId) (s.client.correlated = false) s.view
  refusals : Enrol.Refusals (·.serviceId) (s.client.correlated = false) s.view

theorem Fresh.placed (hf : Fresh s) : Placed s where
  owned := hf.owned _
  distinct := hf.distinct
  covered r hr := by
    rw [hf.outstanding] at hr
    cases hr
  refusals _ r e hr := by
    have hnil := hf.outstanding
    rw [Enrol.outstanding, List.append_eq_nil_iff, List.map_eq_nil_iff] at hnil
    rw [hnil.1] at hr
    cases hr

variable {m : LinkMove}

theorem placeable_register (hw : Wired s) {service : ClientService} {o : WriteOutcome}
    {now : Instant} (hp : s.placeable (.register service o now) = true)
    (hadmits : s.client.admits service s.nextCaller = true) :
    service.id ∉ Enrol.keys (·.serviceId) s.view := by
  rw [placeable, hadmits, Bool.not_true, Bool.false_or, List.all_eq_true] at hp
  rw [hw.mem_keys]
  rintro ⟨r, hr, hid⟩
  simpa [hid] using hp r hr

/-- A refusal on its way, seen in the frames. -/
theorem refuses_of_mem_view {r : Request} {e : TunnelError} (h : (r, .error e) ∈ s.view.down) :
    ∃ p ∈ s.down, p.refuses r.item.serviceId = true := by
  obtain ⟨p, hp, hans⟩ := List.mem_filterMap.mp h
  exact ⟨p, hp, by simp [Packet.refuses, hans]⟩

/-- Only a correlated registration times out without ending the Session. -/
theorem expire_not_serial {correlated : Bool} {a b : LinkView} {ks : Set ServiceId}
    (h : Moves correlated (.expire ks) a b) : ¬ correlated = false := by
  cases h with
  | expire _ hserial => exact hserial

/-- **The condition on the schedule is the one the enrolment asks for.** -/
theorem placeable_of_cause (hw : Wired s) (hs : s.client.phase = .ready) (hpl : Placed s)
    {e : LinkEvent} (hp : s.placeable e = true) (hmove : Moves s.client.correlated m s.view t.view)
    (hcause : Cause s e t m) :
    Enrol.Placeable (·.serviceId) (s.client.correlated = false) s.view m ∧
    Enrol.Heeded (·.serviceId) (s.client.correlated = false) s.view m := by
  have hsound := hw.client (by rw [hs]; rfl)
  cases m with
  | enter r =>
      obtain ⟨service, o, now, rfl, hadmits, rfl⟩ := hcause
      exact ⟨placeable_register hw hp hadmits, trivial⟩
  | forget k =>
      obtain ⟨service, o, now, rfl, hadmits, rfl⟩ := hcause
      exact ⟨fun _ => placeable_register hw hp hadmits, trivial⟩
  | leave k cleared lost =>
      obtain ⟨o, now, rfl, hcleared, -⟩ := hcause
      have hlive : s.view.live k = (s.client.services.transaction k).map (·.request) := rfl
      rcases htxn : s.client.services.transaction k with - | txn
      · -- nothing waits for an answer
        rw [htxn, Option.map_none] at hlive
        refine ⟨fun hsome => ?_, fun hserial r e hr hid => ?_⟩
        · rw [hlive] at hsome
          cases hsome
        · have hl := hpl.refusals hserial hr
          rw [hid, hlive] at hl
          cases hl
      · rw [placeable, htxn] at hp
        simp only [Option.isNone_some, Bool.false_or, Bool.and_eq_true, Bool.not_eq_true',
          decide_eq_true_eq, List.all_eq_true] at hp
        obtain ⟨⟨hserial, hroom⟩, hrefusals⟩ := hp
        refine ⟨fun _ => ⟨hserial, fun hc => ?_⟩, fun _ r e hr hid => ?_⟩
        · exact absurd (hcleared hc) (by omega)
        · obtain ⟨p, hp, href⟩ := refuses_of_mem_view hr
          rw [show r.item.serviceId = k from hid, hrefusals p hp] at href
          cases href
  | expire ks =>
      obtain ⟨now, rfl, rfl⟩ := hcause
      refine ⟨?_, trivial⟩
      rintro k ⟨txn, htxn, hoverdue⟩
      have hmode : s.client.correlated = true := by
        rw [← Bool.not_eq_false]
        exact expire_not_serial hmove
      rw [placeable, hmode, Bool.not_true, Bool.false_or, List.all_eq_true] at hp
      have hnot := hp txn (hsound.consistent.transaction_mem htxn).1
      rw [hoverdue] at hnot
      cases hnot
  | refuse r =>
      obtain ⟨os, o, v, code, rfl, hhead, hreg⟩ := hcause
      refine ⟨trivial, fun hserial => ?_⟩
      obtain ⟨up, hup⟩ := List.head?_eq_some_iff.mp hhead
      simp [placeable, hserial, hup, hreg] at hp
      exact hp
  | stutter | bury | settle | serve | crash => exact ⟨trivial, trivial⟩

theorem Placed.step (hpl : Placed s) (hw : Wired s) {e : LinkEvent} (hp : s.placeable e = true)
    (h : s.step e = some t) (hs : s.client.phase = .ready) (ht : t.client.phase = .ready) :
    Placed t := by
  obtain ⟨m, hmove, hcause⟩ := refines_step hw hs h ht
  obtain ⟨hsafe, hheed⟩ := placeable_of_cause hw hs hpl hp hmove hcause
  have hmatch := Enrol.RefusalMatched.of_refusals hpl.owned hpl.refusals
  have hmode := correlated_of_step hw h hs ht
  refine ⟨?_, ?_, ?_, ?_⟩
  · rw [hmode]
    exact hpl.owned.step hmove
  · refine hpl.distinct.step hmove ?_
    rintro r rfl
    exact hsafe
  · rw [hmode]
    exact hpl.covered.step hpl.distinct hmatch hsafe hmove
  · rw [hmode]
    exact hpl.refusals.step hpl.owned hpl.distinct hheed hmove

/-- An acknowledgement that can be placed keeps the Session. -/
theorem acknowledged_placed {c : Client} {ack : RegisterAck} {o : WriteOutcome} {d : Client}
    {fx : Effects} (hack : Client.Acknowledged c ack o d fx)
    (hplace : (c.services.live ack.serviceId).isSome ∨ ack.serviceId ∈ c.services.dead) :
    d.phase = c.phase ∧
    ∀ id, id ≠ ack.serviceId → d.services.live id = c.services.live id := by
  cases hack with
  | commit _ hphase hlive =>
      refine ⟨hphase, fun id hne => ?_⟩
      rw [hlive, Function.update_of_ne hne]
  | undo _ hphase hlive =>
      refine ⟨hphase, fun id hne => ?_⟩
      rw [hlive, Function.update_of_ne hne]
  | undoDead _ _ hphase hlive => exact ⟨hphase, fun id _ => by rw [hlive]⟩
  | unplaced hnone hdead =>
      rcases hplace with hsome | hmem
      · rw [hnone] at hsome
        cases hsome
      · exact absurd hmem hdead

/-- The Session goes on after the answer to `r`, and so do the transactions of
other Services. -/
def Survives (r : Request) (s t : Link) : Prop :=
  t.client.phase = .ready ∧
  ∀ id, id ≠ r.item.serviceId → t.client.services.live id = s.client.services.live id

/-- Reading the answer to a request, with every answer placed. -/
theorem Placed.response (hpl : Placed s) (hw : Wired s) (hs : s.client.phase = .ready)
    {r : Request} (hnext : s.down.head?.bind (·.about) = some r) {o : WriteOutcome}
    (h : s.step (.deliver o) = some t) : Survives r s t := by
  obtain ⟨packet, down, c, fx, packets, hdown, hin, -, rfl⟩ := deliver_eq_some hs h
  have hpacket : packet.about = some r := by simpa [hdown] using hnext
  have hsound := hw.client (by rw [hs]; rfl)
  obtain ⟨v, hresp⟩ : ∃ v, packet = ⟨Server.response s.server.negotiated r.item.serviceId v,
      some r⟩ := by
    rcases hw.down packet (hdown ▸ List.mem_cons_self) with ⟨r', v, hr⟩ | ⟨hnone, -⟩
    · rw [hr] at hpacket
      obtain rfl := Option.some.inj hpacket
      exact ⟨v, hr⟩
    · rw [hpacket] at hnone
      cases hnone
  have hhead := view_down hdown hresp
  have hmem : r ∈ Enrol.outstanding s.view := Enrol.head_mem_outstanding hhead
  have hcovered := hpl.covered r hmem
  rw [hresp] at hin
  cases v with
  | accepted b =>
      obtain ⟨-, -, hack⟩ := Client.onRegisterAck_cases hsound.consistent hin
      have hplace : (s.client.services.live r.item.serviceId).isSome ∨
          r.item.serviceId ∈ s.client.services.dead := by
        refine hcovered.imp (fun hl => ?_) fun hd => hd.2
        exact Option.isSome_iff_exists.mpr ⟨r, hl⟩
      obtain ⟨hphase, hother⟩ := acknowledged_placed hack hplace
      exact ⟨hphase.trans hs, hother⟩
  | refused code =>
      obtain ⟨hresult, -, -, -, hrefused⟩ := hw.refusal_cases hs hin
      rw [hresult] at hhead
      cases hrefused with
      | @found k register caller hkey hfound hphase hlive =>
          -- the transaction it found is the one it refuses
          have hk : k = r.item.serviceId := by
            rcases hmode : s.client.correlated with - | -
            · have heq := Enrol.RefusalMatched.of_refusals hpl.owned hpl.refusals hmode hhead hfound
              rw [← heq]
              exact (hpl.owned.key_live hfound).symm
            · exact hkey hmode
          refine ⟨hphase.trans hs, fun id hne => ?_⟩
          dsimp only
          rw [hlive, Function.update_of_ne (hk ▸ hne)]
      | dead _ _ _ hphase hlive => exact ⟨hphase.trans hs, fun id _ => by dsimp only; rw [hlive]⟩
      | unplaced hnone =>
          exfalso
          split_ifs at hnone with hmode
          · rcases hcovered with hl | ⟨hserial, -⟩
            · have hl' : s.client.services.live r.item.serviceId = some r := hl
              rw [hnone.1] at hl'
              cases hl'
            · rw [hmode] at hserial
              cases hserial
          · have hl : s.client.services.live r.item.serviceId = some r :=
              hpl.refusals (Bool.eq_false_iff.mpr hmode) (hhead ▸ List.mem_cons_self)
            rw [hnone] at hl
            cases hl

/-- **In a schedule of placeable steps, every answer is placed**: reading the
answer to a request leaves the client in its select loop, and the transactions
of other Services as they were. -/
theorem response_placed (c : LinkConfig) (es : List LinkEvent)
    (hsteps : AllSteps step (fun s e => s.placeable e = true) (init c) es)
    (hrun : exec step (init c) es = some s) (hs : s.client.phase = .ready) {r : Request}
    (hnext : s.down.head?.bind (·.about) = some r) {o : WriteOutcome}
    (h : s.step (.deliver o) = some t) : Survives r s t := by
  have hinv : Phased c Placed s := by
    refine ready_inv (fun s _ _ hf _ => hf.placed) ?_ hsteps hrun
    intro s e t hw hpl hp h hs ht
    exact hpl.step hw hp h hs ht
  exact (hinv.ready hs).response hinv.wired hs hnext h

/-- A serial registration is cancelled and accepted nevertheless. -/
def cancelledThenAccepted : List LinkEvent :=
  [.register webService .done 0, .unregister webService.id .done 0, .serve (boundAt 1000) .done]

/-- The link on which the acceptance is on its way. -/
def lateAcceptance : Link :=
  (exec step (init (smallLink legacyPeer [])) cancelledThenAccepted).get (by decide +kernel)

theorem response_placed_after_cancel :
    exec step (init (smallLink legacyPeer [])) cancelledThenAccepted = some lateAcceptance ∧
    ∃ t, lateAcceptance.step (.deliver .done) = some t ∧
      Survives ⟨webService.registration, some 0⟩ lateAcceptance t := by
  have hrun : exec step (init (smallLink legacyPeer [])) cancelledThenAccepted
      = some lateAcceptance := Option.eq_some_of_isSome _
  obtain ⟨t, ht⟩ : ∃ t, lateAcceptance.step (.deliver .done) = some t :=
    Option.isSome_iff_exists.mp (by decide +kernel)
  exact ⟨hrun, t, ht, response_placed (smallLink legacyPeer []) cancelledThenAccepted
    (by decide +kernel) hrun (by decide +kernel) (by decide +kernel) ht⟩

/-- **A late acknowledgement ends the Session**: a correlated registration that
timed out leaves no trace, and its acknowledgement is taken for a protocol
violation. -/
theorem late_acknowledgement_is_fatal :
    ¬ ∀ (c : LinkConfig) (es : List LinkEvent) (s t : Link) (r : Request) (o : WriteOutcome),
      exec step (init c) es = some s → s.client.phase = .ready →
      s.down.head?.bind (·.about) = some r → s.step (.deliver o) = some t → Survives r s t := by
  intro h
  have hsurvives := h (smallLink correlatedPeer [])
    [.register webService .done 0, .client (.registrationDeadline (secs 10)),
      .serve (boundAt 1000) .done] _ _ ⟨webService.registration, some 0⟩ .done rfl
    (by decide +kernel) (by decide +kernel) rfl
  have hphase : Phase.returned (.error (.protocol .unexpectedMessage)) = .ready := hsurvives.1
  cases hphase

/-! ### Agreement -/

/-- The client's own writes are not cut short by a timeout. -/
def timely : LinkEvent → Bool
  | .register _ o _ => decide (o = .done)
  | .unregister _ o _ => decide (o = .done)
  | .deliver o => decide (o = .done)
  | _ => true

/-- The two ends agree, up to what is on its way, as long as the client keeps
track of its requests. -/
structure Agreeing (s : Link) : Prop where
  owned : Enrol.Owned (·.serviceId) (s.client.correlated = false) s.view
  settled : Enrol.Tracked (·.serviceId) s.view → s.server.phase = .running →
    Enrol.Settled (·.serviceId) (·.name) s.view

theorem reliable_of_cause {m : LinkMove} {e : LinkEvent} (htime : timely e = true)
    (hrun : t.server.phase = .running) (hcause : Cause s e t m) : Enrol.Reliable m := by
  cases m with
  | bury k =>
      obtain ⟨service, o, now, rfl, hlost⟩ := hcause
      exact hlost (of_decide_eq_true htime)
  | leave k cleared lost =>
      obtain ⟨o, now, rfl, -, hlost⟩ := hcause
      refine Bool.eq_false_iff.mpr fun hl => ?_
      exact hlost hl (of_decide_eq_true htime)
  | settle lost =>
      obtain ⟨o, rfl, hlost⟩ := hcause
      refine Bool.eq_false_iff.mpr fun hl => ?_
      exact hlost hl (of_decide_eq_true htime)
  | crash => exact hcause hrun
  | stutter | enter | forget | expire | serve | refuse => trivial

theorem Agreeing.step (ha : Agreeing s) (hw : Wired s) {e : LinkEvent} (htime : timely e = true)
    (h : s.step e = some t) (hs : s.client.phase = .ready) (ht : t.client.phase = .ready) :
    Agreeing t := by
  obtain ⟨m, hmove, hcause⟩ := refines_step hw hs h ht
  refine ⟨correlated_of_step hw h hs ht ▸ ha.owned.step hmove, fun htr hrun => ?_⟩
  have hrel := reliable_of_cause htime hrun hcause
  -- a client that is tracked now was tracked before
  have htr' := Enrol.tracked_of_step ha.owned hmove (by rintro k rfl; exact hrel) htr
  exact (ha.settled htr' (running_of_step hw h hrun)).step ha.owned hrel htr hmove

/-- Nothing is on its way and the client waits for nothing. -/
structure Quiescent (s : Link) : Prop where
  client : s.client.phase = .ready
  server : s.server.phase = .running
  up : s.up = []
  down : s.down = []
  pending : s.client.services.pending = none
  inFlight : s.client.services.inFlight = ∅

/-- The client and the server have the same Services on record, under the same
names and at the same addresses. -/
def Agrees (s : Link) : Prop :=
  ∀ id, (s.client.services.active.lookup id).map (·.name) = s.server.services.lookup id ∧
    s.client.bindsOf id = s.server.bindsOf id ∧
    ((s.client.services.active.lookup id).isSome → ∃ b, s.client.bindsOf id = [b])

/-- With nothing on its way, settled is agreed. -/
theorem Quiescent.agrees (hq : Quiescent s)
    (hset : Enrol.Settled (·.serviceId) (·.name) s.view) : Agrees s := by
  intro id
  have hid := hset id
  have hlive : (Enrol.portion (·.serviceId) id s.view).live = none := by
    simp [Enrol.portion, view, ServiceState.live, ServiceState.transaction, hq.pending, hq.inFlight]
  have hup : (Enrol.portion (·.serviceId) id s.view).up = [] := by
    simp [Enrol.portion, view, hq.up]
  rcases hactive : s.client.services.active.lookup id with - | service
  · have hnone : (Enrol.portion (·.serviceId) id s.view).active = none := by
      simp [Enrol.portion, view, ServiceState.enrolled, hactive]
    have htable : s.server.services.lookup id = none := by
      rcases hid.idle hlive hnone with ⟨-, htable⟩ | ⟨pre, hpre⟩
      · exact htable
      · rw [hup] at hpre
        simp at hpre
    have hnoted : s.client.bindsOf id = [] := hid.noted_free hnone
    have hbound : s.server.bindsOf id = [] := hid.bound_free htable
    exact ⟨htable.symm, hnoted.trans hbound.symm, fun hsome => by cases hsome⟩
  · have hsome : (Enrol.portion (·.serviceId) id s.view).active = some service.registration := by
      simp [Enrol.portion, view, ServiceState.enrolled, hactive]
    obtain ⟨-, -, htable, b, hbound, hnoted⟩ := hid.enrolled _ hsome
    exact ⟨htable.symm, hnoted.trans hbound.symm, fun _ => ⟨b, hnoted⟩⟩

/-- **Agreement at quiescence**: with nothing on its way and nothing waited
for, the tables of client and server agree. -/
theorem agreement_at_quiescence (c : LinkConfig) (es : List LinkEvent)
    (hsteps : AllSteps step (fun _ e => timely e = true) (init c) es)
    (hrun : exec step (init c) es = some s) (hq : Quiescent s) : Agrees s := by
  have hinv : Phased c Agreeing s := by
    refine ready_inv (fun s _ _ hf _ => ⟨hf.owned _, fun _ => hf.settled⟩) ?_ hsteps hrun
    intro s e t hw ha htime h hs ht
    exact ha.step hw htime h hs ht
  refine hq.agrees ((hinv.ready hq.client).settled ?_ hq.server)
  apply Enrol.tracked_of_outstanding_nil
  rw [hinv.wired.outstanding, requests, hq.up, hq.down]
  rfl

/-- Two registrations, one of them given up again. -/
def settledSchedule : List LinkEvent :=
  [.register webService .done 0, .serve (boundAt 1000) .done, .deliver .done,
    .register mailService .done 0, .unregister webService.id .done 0,
    .serve (boundAt 1001) .done, .deliver .done, .serve .bindFailed .done]

/-- The link with everything delivered. -/
def settledLink : Link :=
  (exec step (init (smallLink correlatedPeer [])) settledSchedule).get (by decide +kernel)

theorem agreement_after_two_registrations :
    exec step (init (smallLink correlatedPeer [])) settledSchedule = some settledLink ∧
    Agrees settledLink := by
  have hrun : exec step (init (smallLink correlatedPeer [])) settledSchedule
      = some settledLink := Option.eq_some_of_isSome _
  refine ⟨hrun, agreement_at_quiescence (smallLink correlatedPeer []) settledSchedule
    (by decide +kernel) hrun
    ⟨?_, ?_, ?_, ?_, ?_, Table.size_eq_zero_iff.mp (by decide +kernel)⟩⟩
  all_goals decide +kernel

end Link

end Eggtunnel
