/-
Eggtunnel/Refine.lean

The link refines the enrolment: while the client is in its select loop, every
step of the link is a step of `Enrol.Step` between the views.

`Cause` says what in the schedule lies behind each move, so that a condition on
the events of the link gives the condition that the rules of the enrolment ask
for.
-/
import Eggtunnel.View

namespace Eggtunnel

/-! ### Binds -/

theorem Client.bindsOf_append {s t : Client} {id : ServiceId} {bind : EffectiveBind}
    {session : SessionId}
    (h : t.counters.binds = s.counters.binds ++ [⟨session, id, bind⟩]) :
    t.bindsOf = Function.update s.bindsOf id (s.bindsOf id ++ [bind]) := by
  funext k
  simp only [bindsOf, h, List.filter_append, Function.update_apply]
  split_ifs with hk
  · simp [hk]
  · simp [Ne.symm hk]

theorem Client.bindsOf_filter {s t : Client} {id : ServiceId}
    (h : t.counters.binds = s.counters.binds.filter (·.service ≠ id)) :
    t.bindsOf = Function.update s.bindsOf id [] := by
  funext k
  simp only [bindsOf, h, List.filter_filter, Function.update_apply]
  split_ifs with hk
  · subst hk
    rw [List.map_eq_nil_iff, List.filter_eq_nil_iff]
    simp
  · congr 1
    refine List.filter_congr fun b _ => ?_
    by_cases hb : b.service = k
    · simp [hb, hk]
    · simp [hb]

theorem Client.bindsOf_congr {s t : Client} (h : t.counters.binds = s.counters.binds) :
    t.bindsOf = s.bindsOf := by
  funext k
  rw [bindsOf, bindsOf, h]

namespace Link

variable {s t : Link}

@[simp] theorem told_loop (a : Answer) : told (.loop, a) = none := rfl

@[simp] theorem told_response (caller : CallerId) (result : Except TunnelError EffectiveBind) :
    told (.response, caller, result) = some (some caller, result) := rfl

/-! ### Why a move is made -/

/-- What the schedule did to cause a move. -/
def Cause (s : Link) (e : LinkEvent) (t : Link) : LinkMove → Prop
  | .enter r => ∃ service o now, e = .register service o now ∧
      s.client.admits service s.nextCaller = true ∧ r = ⟨service.registration, some s.nextCaller⟩
  | .forget k => ∃ service o now, e = .register service o now ∧
      s.client.admits service s.nextCaller = true ∧ k = service.id
  | .bury _ => ∃ service o now, e = .register service o now ∧ o ≠ .done
  | .leave k cleared lost => ∃ o now, e = .unregister k o now ∧
      (cleared = true → 256 ≤ s.client.services.abandoned.size) ∧ (lost = true → o ≠ .done)
  | .expire ks => ∃ now, e = .client (.registrationDeadline now) ∧
      ks = s.client.services.overdueIds now
  | .settle lost => ∃ o, e = .deliver o ∧ (lost = true → o ≠ .done)
  | .refuse r => ∃ os o v code, e = .serve os o ∧
      s.up.head? = some ⟨.registerService r.item, some r⟩ ∧
      s.server.registerService r.item os = (v, .refused code)
  | .serve => ∃ os o, e = .serve os o
  | .crash => t.server.phase ≠ .running
  | .stutter => True

/-- The link makes a move of the enrolment, for a reason. -/
def Refines (s : Link) (e : LinkEvent) (t : Link) : Prop :=
  ∃ m, Moves s.client.correlated m s.view t.view ∧ Cause s e t m

/-! ### The steps of the client -/

/-- A client step that keeps transactions and binds and sends no command does
not show. -/
theorem view_of_kept {c : Client} {packets : List Packet} {answers : List (Source × Answer)}
    (hkept : s.client.Kept c) (hup : packets.filterMap Packet.command = [])
    (hanswers : answers.filterMap told = []) :
    ({ s with client := c, up := s.up ++ packets, answers := s.answers ++ answers } : Link).view
      = s.view := by
  simp [view, hkept.services, Client.bindsOf_congr hkept.binds, hup, hanswers]

theorem enrolled_congr {a b : ServiceState} (h : a.active = b.active) :
    a.enrolled = b.enrolled := by
  funext k
  rw [ServiceState.enrolled, ServiceState.enrolled, h]

theorem refines_register (hw : Wired s) (hs : s.client.phase = .ready) {service : ClientService}
    {o : WriteOutcome} {now : Instant} (h : s.step (.register service o now) = some t)
    (ht : t.client.phase = .ready) : Refines s (.register service o now) t := by
  obtain ⟨c, fx, packets, hstep, hcarry, hteq⟩ := clientStep_eq_some h
  simp only [Client.step, hs] at hstep
  have hc : c.phase = .ready := by rwa [hteq] at ht
  have hsound := hw.client (by rw [hs]; rfl)
  obtain ⟨-, hbinds, -, hactive, hreg⟩ :=
    Client.onRegister_ready hsound.consistent (Option.some.inj hstep) hc
  have henrolled := enrolled_congr hactive
  have hnoted := Client.bindsOf_congr hbinds
  cases hreg with
  | denied hlive hdead hwrites =>
      rw [hwrites] at hcarry
      obtain rfl := Option.some.inj hcarry
      have hview : t.view = s.view := by
        simp [hteq, view, hlive, hdead, henrolled, hnoted]
      exact ⟨.stutter, by rw [hview]; exact .stutter, trivial⟩
  | full hadmits hlive hdead hwrites =>
      rw [hwrites] at hcarry
      obtain rfl := Option.some.inj hcarry
      have hview : t.view = { s.view with dead := s.view.dead \ {service.id} } := by
        simp [hteq, view, hlive, hdead, henrolled, hnoted]
      refine ⟨.forget service.id, ?_, service, o, now, rfl, hadmits, rfl⟩
      rw [hview]
      exact .forget service.id
  | sent hadmits hfree hidle hnew hlive hdead hdone hwrites =>
      rw [hwrites, hdone] at hcarry
      obtain rfl := carry_done hcarry
      have hview : t.view = { s.view with
          live := Function.update s.view.live service.id
            (some ⟨service.registration, some s.nextCaller⟩)
          dead := s.view.dead \ {service.id}
          up := s.view.up ++ [.enter ⟨service.registration, some s.nextCaller⟩] } := by
        simp [hteq, view, hlive, hdead, henrolled, hnoted, Packet.command, asking]
      refine ⟨.enter ⟨service.registration, some s.nextCaller⟩, ?_, service, o, now, rfl,
        hadmits, rfl⟩
      rw [hview]
      exact .enter _ hfree hidle hnew
  | unsent hadmits hmode hfree hlive hdead hlost hwrites =>
      rw [hwrites] at hcarry
      obtain ⟨hdone, -⟩ | ⟨-, rfl⟩ := carry_single hcarry
      · exact absurd hdone hlost
      have hview : t.view = { s.view with dead := c.services.dead } := by
        simp [hteq, view, hlive, henrolled, hnoted]
      refine ⟨.bury service.id, ?_, service, o, now, rfl, hlost⟩
      rw [hview]
      exact .bury service.id (by simp [hmode]) hfree hdead

theorem refines_unregister (hw : Wired s) (hs : s.client.phase = .ready) {id : ServiceId}
    {o : WriteOutcome} {now : Instant} (h : s.step (.unregister id o now) = some t)
    (ht : t.client.phase = .ready) : Refines s (.unregister id o now) t := by
  obtain ⟨c, fx, packets, hstep, hcarry, hteq⟩ := clientStep_eq_some h
  simp only [Client.step, hs] at hstep
  have hc : c.phase = .ready := by rwa [hteq] at ht
  have hsound := hw.client (by rw [hs]; rfl)
  obtain ⟨-, -, hlive, henrolled, hdead, hbinds, hwrites⟩ :=
    Client.onUnregister_ready hsound.consistent (Option.some.inj hstep) hc
  have hnoted : c.bindsOf = if (s.client.services.enrolled id).isSome then
      Function.update s.client.bindsOf id [] else s.client.bindsOf := by
    split_ifs at hbinds ⊢
    · exact Client.bindsOf_filter hbinds
    · exact Client.bindsOf_congr hbinds
  have hup : t.view.up = Enrol.send (decide (o ≠ .done)) s.view.up (.leave id) := by
    rw [hwrites] at hcarry
    obtain ⟨rfl, rfl⟩ | ⟨hlost, rfl⟩ := carry_single hcarry
    · simp [hteq, view, Enrol.send, Packet.command]
    · simp [hteq, view, Enrol.send, hlost]
  refine ⟨.leave id (decide (256 ≤ s.client.services.abandoned.size)) (decide (o ≠ .done)), ?_,
    o, now, rfl, by simp, by simp⟩
  have hview : t.view = { s.view with
      live := c.services.live
      dead := c.services.dead
      active := c.services.enrolled
      noted := c.bindsOf
      up := t.view.up } := by
    simp [hteq, view]
  rw [hview, hup, hlive, henrolled, hnoted, hdead]
  convert Enrol.Step.leave id (decide (256 ≤ s.client.services.abandoned.size))
    (decide (o ≠ .done)) using 2
  · rfl
  · simp only [view, decide_eq_true_eq]
  · rfl
  · simp only [view]
    congr

/-- Frames that are neither commands nor requests do not show on their way
up. -/
theorem command_of_carry {caller : Option CallerId} {writes : List Write}
    {packets : List Packet} (hcarry : carry (asking caller) writes = some packets)
    (hwrites : writes = [] ∨
      ∃ m o, writes = [(m, o)] ∧ (m.isChatter = true ∨ m.isNotice = true)) :
    packets.filterMap Packet.command = [] := by
  rw [List.filterMap_eq_nil_iff]
  intro p hp
  obtain ⟨m, hmem, rfl⟩ := mem_carry hcarry p hp
  rcases hwrites with rfl | ⟨m', o', rfl, hkind⟩
  · cases hmem
  · obtain ⟨rfl, rfl⟩ := Prod.mk.inj (List.mem_singleton.mp hmem)
    cases m with
    | registerService | unregisterService => rcases hkind with hkind | hkind <;> cases hkind
    | _ => rfl

theorem refines_client (hw : Wired s) (hs : s.client.phase = .ready) {e : ClientEvent}
    (h : s.step (.client e) = some t) (ht : t.client.phase = .ready) :
    Refines s (.client e) t := by
  simp only [step] at h
  split_ifs at h with hown
  obtain ⟨c, fx, packets, hstep, hcarry, hteq⟩ := clientStep_eq_some h
  have hc : c.phase = .ready := by rwa [hteq] at ht
  have hsound := hw.client (by rw [hs]; rfl)
  rcases Client.step_own hs hown hsound.outbox hstep with ⟨hkept, -, hwrites⟩ |
    ⟨now, x, rfl, hexp, hwrites, -, hbinds, hx⟩
  · have hview : t.view = s.view := by
      rw [hteq]
      exact view_of_kept hkept (command_of_carry hcarry hwrites) (by simp)
    exact ⟨.stutter, by rw [hview]; exact .stutter, trivial⟩
  · rw [hwrites] at hcarry
    obtain rfl := Option.some.inj hcarry
    have hnoted := Client.bindsOf_congr hbinds
    have hcons := hsound.consistent
    rcases hmode : s.client.correlated with - | -
    · -- in the serial mode nothing was overdue
      rw [hmode] at hcons
      obtain ⟨hsame, hnil⟩ := ServiceState.expireOverdue_serial hcons now hexp (hx hc)
      have hview : t.view = s.view := by
        simp [hteq, view, hsame, hnoted]
      exact ⟨.stutter, by rw [hview]; exact .stutter, trivial⟩
    · rw [hmode] at hcons
      obtain ⟨-, -, hlive, hdead, hactive⟩ :=
        ServiceState.expireOverdue_correlated hcons now hexp
      have henrolled := enrolled_congr hactive
      have hview : t.view = { s.view with live := c.services.live } := by
        simp [hteq, view, hdead, henrolled, hnoted]
      refine ⟨.expire (s.client.services.overdueIds now), ?_, now, rfl, rfl⟩
      have hserial : ¬ s.client.correlated = false := by simp [hmode]
      rw [hview]
      convert Enrol.Step.expire (s.client.services.overdueIds now) hserial using 2
      funext k
      split_ifs with hk
      · exact (hlive k).1 hk
      · exact (hlive k).2 hk

/-! ### The client reads a frame -/

theorem deliver_eq_some (hs : s.client.phase = .ready) {o : WriteOutcome}
    (h : s.step (.deliver o) = some t) :
    ∃ packet down c fx packets, s.down = packet :: down ∧
      s.client.onIncoming packet.msg o = (c, fx) ∧
      carry (asking none) fx.writes = some packets ∧
      t = { s with
        client := c
        up := s.up ++ packets
        down := down
        answers := s.answers ++ fx.answers.map (Source.response, ·) } := by
  simp only [step] at h
  split at h
  · rename_i packet down hdown
    obtain ⟨c, fx, packets, hstep, hcarry, hteq⟩ := clientStep_eq_some h
    simp only [Client.step, hs] at hstep
    exact ⟨packet, down, c, fx, packets, hdown, Option.some.inj hstep, hcarry, hteq⟩
  · cases h

/-- The answer that the head of the channel is. -/
theorem view_down {packet : Packet} {down : List Packet} {r : Request} {m : Message}
    (hdown : s.down = packet :: down) (hpacket : packet = ⟨m, some r⟩) :
    s.view.down = (r, m.result) :: down.filterMap Packet.answer := by
  simp [view, hdown, hpacket, Packet.answer]

theorem refines_ack {o : WriteOutcome} {r : Request}
    {b : EffectiveBind} {down packets : List Packet} {c : Client} {fx : Effects}
    (hdown : s.view.down = (r, .ok b) :: down.filterMap Packet.answer)
    (hcarry : carry (asking none) fx.writes = some packets)
    (hack : Client.Acknowledged s.client ⟨r.item.serviceId, b⟩ o c fx)
    (hteq : t = { s with
        client := c
        up := s.up ++ packets
        down := down
        answers := s.answers ++ fx.answers.map (Source.response, ·) })
    (ht : t.client.phase = .ready) : Refines s (.deliver o) t := by
  have hlost : decide (o ≠ .done) = true → o ≠ .done := by simp
  -- a cleanup goes up unless its write was lost
  have hup (hwrites : fx.writes = [(.unregisterService ⟨r.item.serviceId⟩, o)]) :
      t.view.up = Enrol.send (decide (o ≠ .done)) s.view.up (.leave r.item.serviceId) := by
    rw [hwrites] at hcarry
    obtain ⟨rfl, rfl⟩ | ⟨hlost, rfl⟩ := carry_single hcarry
    · simp [hteq, view, Enrol.send, Packet.command]
    · simp [hteq, view, Enrol.send, hlost]
  cases hack with
  | @commit register caller hfound hphase hlive hdead hactive hbinds hwrites hanswers =>
      rw [hwrites] at hcarry
      obtain rfl := Option.some.inj hcarry
      have hview : t.view = { s.view with
          live := Function.update s.view.live r.item.serviceId none
          active := Function.update s.view.active r.item.serviceId (some register)
          noted := Function.update s.view.noted r.item.serviceId
            (s.view.noted r.item.serviceId ++ [b])
          down := down.filterMap Packet.answer
          told := s.view.told ++ [(some caller, .ok b)] } := by
        simp [hteq, view, hlive, hdead, hactive, Client.bindsOf_append hbinds, hanswers]
      refine ⟨.settle false, ?_, o, rfl, by simp⟩
      rw [hview]
      replace hfound : s.view.live r.item.serviceId = some ⟨register, some caller⟩ := hfound
      exact .commit hdown hfound false
  | @undo r' hfound hphase hlive hdead hactive hbinds hwrites hanswers =>
      have hview : t.view = { s.view with
          live := Function.update s.view.live r.item.serviceId none
          down := down.filterMap Packet.answer
          up := t.view.up } := by
        simp [hteq, view, hlive, hdead, enrolled_congr hactive, Client.bindsOf_congr hbinds,
          hanswers]
      refine ⟨.settle (decide (o ≠ .done)), ?_, o, rfl, hlost⟩
      rw [hview, hup hwrites]
      replace hfound : s.view.live r.item.serviceId = some r' := hfound
      exact .undo hdown hfound _
  | undoDead hnone hfound hphase hlive hdead hactive hbinds hwrites hanswers =>
      have hview : t.view = { s.view with
          dead := s.view.dead \ {r.item.serviceId}
          down := down.filterMap Packet.answer
          up := t.view.up } := by
        simp [hteq, view, hlive, hdead, enrolled_congr hactive, Client.bindsOf_congr hbinds,
          hanswers]
      refine ⟨.settle (decide (o ≠ .done)), ?_, o, rfl, hlost⟩
      rw [hview, hup hwrites]
      replace hnone : s.view.live r.item.serviceId = none := hnone
      exact .undoDead hdown hnone hfound _
  | unplaced hnone hdead hphase =>
      rw [hteq] at ht
      rw [hphase] at ht
      cases ht

theorem refines_refusal {o : WriteOutcome} {r : Request}
    {err : TunnelError} {down : List Packet} {c : Client} {fx : Effects}
    (hdown : s.view.down = (r, .error err) :: down.filterMap Packet.answer)
    (hactive : c.services.active = s.client.services.active)
    (hbinds : c.counters.binds = s.client.counters.binds)
    (hrefused : Client.Refused s.client r.item.serviceId err c fx)
    (hteq : t = { s with
        client := c
        down := down
        answers := s.answers ++ fx.answers.map (Source.response, ·) })
    (ht : t.client.phase = .ready) : Refines s (.deliver o) t := by
  have henrolled := enrolled_congr hactive
  have hnoted := Client.bindsOf_congr hbinds
  cases hrefused with
  | @found k register caller hkey hfound hphase hlive hdead hanswers =>
      have hview : t.view = { s.view with
          live := Function.update s.view.live k none
          down := down.filterMap Packet.answer
          told := s.view.told ++ [(some caller, .error err)] } := by
        simp [hteq, view, hlive, hdead, henrolled, hnoted, hanswers]
      refine ⟨.settle false, ?_, o, rfl, by simp⟩
      rw [hview]
      rcases hmode : s.client.correlated with - | -
      · exact .refusedSlot hdown rfl hfound false
      · obtain rfl := hkey hmode
        have hserial : ¬ true = false := by decide
        exact .refused hdown hserial hfound false
  | dead hmode hnone hfound hphase hlive hdead hanswers =>
      have hview : t.view = { s.view with
          dead := s.view.dead \ {r.item.serviceId}
          down := down.filterMap Packet.answer } := by
        simp [hteq, view, hlive, hdead, henrolled, hnoted, hanswers]
      refine ⟨.settle false, ?_, o, rfl, by simp⟩
      rw [hview]
      have hserial : ¬ s.client.correlated = false := by simp [hmode]
      exact .refusedDead hdown hserial hnone hfound false
  | unplaced hnone hphase =>
      obtain ⟨e, hphase⟩ := hphase
      rw [hteq] at ht
      rw [hphase] at ht
      cases ht

/-- The refusal the server sends is the one the client expects: with the id if
both speak the correlated protocol, and without it otherwise. -/
theorem Wired.refusal_cases (hw : Wired s) (hs : s.client.phase = .ready) {r : Request}
    {code : UInt16} {o : WriteOutcome} {c : Client} {fx : Effects}
    (hin : s.client.onIncoming
      (Server.response s.server.negotiated r.item.serviceId (.refused code)) o = (c, fx)) :
    (Server.response s.server.negotiated r.item.serviceId (.refused code)).result
      = .error (Client.registrationErrorCode code) ∧
    (c.phase = .ready → c.services.active = s.client.services.active) ∧
    c.counters.binds = s.client.counters.binds ∧ fx.writes = [] ∧
    Client.Refused s.client r.item.serviceId (Client.registrationErrorCode code) c fx := by
  have hsound := hw.client (by rw [hs]; rfl)
  have hmode := hsound.mode
  unfold Server.response at hin ⊢
  dsimp only at hin ⊢
  split_ifs at hin ⊢ with hcap
  · rw [hcap] at hmode
    obtain ⟨-, hsame, hbinds, hwrites, hrefused⟩ :=
      Client.onRegisterReject_cases hmode hsound.consistent hin
    exact ⟨rfl, fun hc => (hsame (hc.trans hs.symm) hs).2, hbinds, hwrites, hrefused⟩
  · rw [Bool.eq_false_iff.mpr hcap] at hmode
    obtain ⟨-, hsame, hbinds, hwrites, hrefused⟩ :=
      Client.onError_cases hmode r.item.serviceId hsound.consistent hin
    exact ⟨rfl, fun hc => (hsame (hc.trans hs.symm) hs).2, hbinds, hwrites, hrefused⟩

theorem refines_deliver (hw : Wired s) (hs : s.client.phase = .ready) {o : WriteOutcome}
    (h : s.step (.deliver o) = some t) (ht : t.client.phase = .ready) :
    Refines s (.deliver o) t := by
  obtain ⟨packet, down, c, fx, packets, hdown, hin, hcarry, hteq⟩ := deliver_eq_some hs h
  have hsound := hw.client (by rw [hs]; rfl)
  rcases hw.down packet (hdown ▸ List.mem_cons_self) with ⟨r, v, hpacket⟩ | ⟨hnone, hunasked⟩
  · have hhead := view_down hdown hpacket
    rw [hpacket] at hin
    cases v with
    | accepted b =>
        obtain ⟨-, -, hack⟩ := Client.onRegisterAck_cases hsound.consistent hin
        exact refines_ack hhead hcarry hack hteq ht
    | refused code =>
        obtain ⟨hresult, hactive, hbinds, hwrites, hrefused⟩ := hw.refusal_cases hs hin
        rw [hresult] at hhead
        rw [hwrites] at hcarry
        obtain rfl := Option.some.inj hcarry
        rw [List.append_nil] at hteq
        exact refines_refusal hhead (hactive (by rwa [hteq] at ht)) hbinds hrefused hteq ht
  · obtain ⟨hkept, hfx⟩ := s.client.onIncoming_unasked hunasked o
    rw [hin] at hkept hfx
    dsimp only at hkept hfx
    subst hfx
    obtain rfl := Option.some.inj hcarry
    have hview : t.view = s.view := by
      simp [hteq, view, hkept.services, Client.bindsOf_congr hkept.binds, hdown, Packet.answer,
        hnone]
    exact ⟨.stutter, by rw [hview]; exact .stutter, trivial⟩

/-! ### The steps of the server -/

/-- A server step that ended the Session, or kept its tables, shows as a crash
or not at all. -/
theorem refines_server_kept {e : LinkEvent} {v : Server} {packets : List Packet}
    {up : List Packet} (hkept : s.server.Kept v)
    (hup : up.filterMap Packet.command = s.up.filterMap Packet.command)
    (hnone : packets.filterMap Packet.answer = [])
    (hteq : t = { s with server := v, up := up, down := s.down ++ packets }) :
    Refines s e t := by
  have hview : t.view = { s.view with table := v.services.lookup, bound := v.bindsOf } := by
    simp [hteq, view, hup, hnone]
  by_cases hrun : v.phase = .running
  · obtain ⟨hservices, hbinds⟩ := hkept.tables hrun
    have hbound : v.bindsOf = s.server.bindsOf := by
      funext k
      rw [Server.bindsOf, Server.bindsOf, hbinds]
    refine ⟨.stutter, ?_, trivial⟩
    rw [hview, hservices, hbound]
    exact .stutter
  · refine ⟨.crash, ?_, ?_⟩
    · rw [hview]
      exact .crash
    · rw [Cause, hteq]
      exact hrun

theorem answer_of_carry_none {writes : List Write} {packets : List Packet}
    (h : carry (fun _ => none) writes = some packets) :
    packets.filterMap Packet.answer = [] := by
  rw [List.filterMap_eq_nil_iff]
  intro p hp
  obtain ⟨m, -, rfl⟩ := mem_carry h p hp
  rfl

theorem refines_server (hw : Wired s) {e : ServerEvent} (h : s.step (.server e) = some t) :
    Refines s (.server e) t := by
  simp only [step] at h
  split_ifs at h with hown
  obtain ⟨v, writes, packets, hstep, hcarry, rfl⟩ := serverStep_eq_some h
  obtain ⟨hkept, -⟩ := Server.step_own hown hw.queue hstep
  exact refines_server_kept hkept rfl (answer_of_carry_none hcarry) rfl

/-- The server answers a registration: it enters it, refuses it, or ends. -/
theorem refines_registration {r : Request} {up : List Packet} {os : BindOutcome}
    {o : WriteOutcome} {u v : Server} {verdict : Verdict}
    {packets : List Packet} (hup : s.up = ⟨.registerService r.item, some r⟩ :: up)
    (hreg : s.server.registerService r.item os = (u, verdict))
    (hcarry : carry (fun _ => some r)
      [(Server.response s.server.negotiated r.item.serviceId verdict, o)] = some packets)
    (hend : (o = .done ∧ v = u) ∨ (o ≠ .done ∧ ∃ e, v = u.finish (.error e)))
    (hteq : t = { s with
      server := v
      up := if packets.isEmpty then s.up else up
      down := s.down ++ packets
      verdicts := s.verdicts ++ packets.filterMap fun p => p.about.map (·, p.msg) }) :
    Refines s (.serve os o) t := by
  have hviewup : s.view.up = .enter r :: up.filterMap Packet.command := by
    simp [view, hup, Packet.command]
  obtain ⟨hdone, rfl⟩ | ⟨hlost, e, hv⟩ := hend
  · rw [hdone] at hcarry
    obtain rfl := carry_done hcarry
    cases verdict with
    | accepted b =>
        obtain ⟨hfree, hservices, hbinds, hid, -⟩ := Server.registerService_accepted hreg
        have htable : v.services.lookup = Function.update s.server.services.lookup
            r.item.serviceId (some r.item.name) := by
          funext k
          rw [hservices, Table.lookup_insert_eq, Function.update_apply]
        have hbound : v.bindsOf = Function.update s.server.bindsOf r.item.serviceId
            (s.server.bindsOf r.item.serviceId ++ [b]) := by
          funext k
          rw [Server.bindsOf_append hid hbinds, Function.update_apply]
          split_ifs with hk
          · rw [hk]
          · rfl
        have hview : t.view = { s.view with
            up := up.filterMap Packet.command
            down := s.view.down ++ [(r, .ok b)]
            table := Function.update s.view.table r.item.serviceId (some r.item.name)
            bound := Function.update s.view.bound r.item.serviceId
              (s.view.bound r.item.serviceId ++ [b])
            verdicts := s.view.verdicts ++ [(r, .ok b)] } := by
          simp [hteq, view, htable, hbound, Packet.answer, Server.response, Message.result]
        refine ⟨.serve, ?_, os, o, rfl⟩
        rw [hview]
        replace hfree : s.view.table r.item.serviceId = none := hfree
        exact .accept hviewup hfree
    | refused code =>
        obtain rfl := Server.registerService_refused hreg
        obtain ⟨err, herr⟩ : ∃ err, (Server.response s.server.negotiated r.item.serviceId
            (.refused code)).result = .error err := by
          unfold Server.response
          dsimp only
          split_ifs <;> exact ⟨_, rfl⟩
        have hview : t.view = { s.view with
            up := up.filterMap Packet.command
            down := s.view.down ++ [(r, .error err)]
            verdicts := s.view.verdicts ++ [(r, .error err)] } := by
          simp [hteq, view, Packet.answer, herr]
        refine ⟨.refuse r, ?_, os, o, s.server, code, rfl, ?_, hreg⟩
        · rw [hview]
          exact .refuse hviewup
        · rw [hup]
          rfl
  · obtain ⟨hdone, -⟩ | ⟨-, rfl⟩ := carry_single hcarry
    · exact absurd hdone hlost
    have hview : t.view = { s.view with table := v.services.lookup, bound := v.bindsOf } := by
      simp [hteq, view]
    refine ⟨.crash, ?_, ?_⟩
    · rw [hview]
      exact .crash
    · rw [Cause, hteq, hv]
      exact u.finish_ne_running _

theorem refines_serve (hw : Wired s) {os : BindOutcome} {o : WriteOutcome}
    (h : s.step (.serve os o) = some t) : Refines s (.serve os o) t := by
  simp only [step] at h
  split at h
  swap
  · cases h
  rename_i packet up hup
  obtain ⟨v, writes, packets, hstep, hcarry, hteq⟩ := serveStep_eq_some h
  have hpacket : packet.Up := hw.up packet (hup ▸ List.mem_cons_self)
  obtain ⟨-, ⟨register, u, verdict, hm, hreg, rfl, hend⟩ | ⟨unregister, hm, rfl, rfl⟩ |
    ⟨hnreg, hnunreg, hkept, hwrites⟩⟩ := Server.step_incoming hstep
  · rcases hpacket with ⟨r, rfl⟩ | ⟨-, hne⟩
    · cases hm
      exact refines_registration hup hreg hcarry hend (by simpa using hteq)
    · exact absurd hm (hne register)
  · rcases hpacket with ⟨r, rfl⟩ | ⟨hnone, -⟩
    · cases hm
    obtain rfl := Option.some.inj hcarry
    have htable : (s.server.unregisterService unregister.serviceId).services.lookup
        = Function.update s.server.services.lookup unregister.serviceId none := by
      funext k
      rw [Server.lookup_unregisterService, Function.update_apply]
    have hview : t.view = { s.view with
        up := up.filterMap Packet.command
        table := Function.update s.view.table unregister.serviceId none
        bound := (s.server.unregisterService unregister.serviceId).bindsOf } := by
      simp [hteq, view, hnone, htable]
    refine ⟨.serve, ?_, os, o, rfl⟩
    have hviewup : s.view.up = .leave unregister.serviceId :: up.filterMap Packet.command := by
      simp [view, hup, Packet.command, hm]
    rw [hview]
    convert Enrol.Step.remove hviewup using 2
    funext k
    rw [Server.bindsOf_unregisterService]
    by_cases hpresent : (s.view.table unregister.serviceId).isSome = true
    · rw [if_pos hpresent, Function.update_apply]
      exact if_congr (and_iff_right hpresent) rfl rfl
    · rw [if_neg hpresent, if_neg fun hboth => hpresent hboth.1]
      rfl
  · rcases hpacket with ⟨r, rfl⟩ | ⟨hnone, -⟩
    · exact absurd rfl (hnreg r.item)
    have hquiet : packet.command = none := by
      unfold Packet.command
      split
      · exact absurd (by assumption) (hnreg _)
      · exact absurd (by assumption) (hnunreg _)
      · rfl
    rw [hnone] at hcarry hteq
    have hanswers := answer_of_carry_none hcarry
    have hverdicts : (packets.filterMap fun p => p.about.map (·, p.msg)) = [] := by
      rw [List.filterMap_eq_nil_iff] at hanswers ⊢
      intro p hp
      have hp := hanswers p hp
      simpa [Packet.answer] using hp
    have hsame : up.filterMap Packet.command = s.up.filterMap Packet.command := by
      rw [hup, List.filterMap_cons_none hquiet]
    refine refines_server_kept hkept hsame hanswers ?_
    rw [hteq, hverdicts]
    simp

/-- **The link refines the enrolment**: while the client stays in its select
loop, every step of the link is a step of the enrolment between the views. -/
theorem refines_step (hw : Wired s) (hs : s.client.phase = .ready) {e : LinkEvent}
    (h : s.step e = some t) (ht : t.client.phase = .ready) : Refines s e t := by
  cases e with
  | register service o now => exact refines_register hw hs h ht
  | unregister id o now => exact refines_unregister hw hs h ht
  | deliver o => exact refines_deliver hw hs h ht
  | serve os o => exact refines_serve hw h
  | client e => exact refines_client hw hs h ht
  | server e => exact refines_server hw h

end Link

end Eggtunnel
