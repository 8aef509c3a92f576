/-
Eggtunnel/Exchange.lean

The initial registration exchange on a link, from `AuthOk` to the select loop.

The client sends one `RegisterService` at a time and waits for its answer, so
at most one request is outstanding.  `Ledger` relates what the client has had
acknowledged, in order, to the table of the server: the same entries, and the
one whose answer is still on its way.  The server enters no id twice, hence the
acknowledged ids are distinct although nothing makes the client check.

`Fresh` is what is known of the link when the client enters its select loop.
-/
import Eggtunnel.Refine

namespace Eggtunnel

/-! ### Entries -/

/-- Registrations that were accepted, with the address bound for each. -/
abbrev Entries := List (RegisterService × EffectiveBind)

namespace Entries

/-- The entry of a Service. -/
def entry (l : Entries) (id : ServiceId) : Option (RegisterService × EffectiveBind) :=
  l.find? (·.1.serviceId = id)

/-- The Services that have one. -/
def ids (l : Entries) : List ServiceId := l.map (·.1.serviceId)

variable {l : Entries} {id : ServiceId} {register : RegisterService} {bind : EffectiveBind}

theorem entry_eq_none_iff : entry l id = none ↔ id ∉ ids l := by
  rw [entry, List.find?_eq_none]
  simp [ids]

/-- A new id joins the others. -/
theorem entry_append (hnew : entry l register.serviceId = none) (k : ServiceId) :
    entry (l ++ [(register, bind)]) k
      = if k = register.serviceId then some (register, bind) else entry l k := by
  unfold entry at hnew ⊢
  rw [List.find?_append]
  split_ifs with hk
  · rw [hk, hnew]
    simp
  · simp [Ne.symm hk]

theorem nodup_append (hl : (ids l).Nodup) (hnew : entry l register.serviceId = none) :
    (ids (l ++ [(register, bind)])).Nodup := by
  rw [entry_eq_none_iff] at hnew
  simp only [ids, List.map_append, List.map_cons, List.map_nil]
  rw [List.nodup_append]
  refine ⟨hl, by simp, ?_⟩
  rintro a ha b hb rfl
  rw [List.mem_singleton] at hb
  exact hnew (hb ▸ ha)

end Entries

/-! ### The exchange -/

/-- The events of the server. -/
def LinkEvent.isServers : LinkEvent → Bool
  | .serve _ _ | .server _ => true
  | _ => false

/-- The entry an acceptance stands for. -/
def granted : Request × Except TunnelError EffectiveBind → Option (RegisterService × EffectiveBind)
  | (r, .ok bind) => some (r.item, bind)
  | (_, .error _) => none

/-- The request of the exchange that waits for its answer. -/
def asked (todo : List ClientService) (sent : Bool) : List Request :=
  if sent then (todo.take 1).map fun service => ⟨service.registration, none⟩ else []

namespace Link

/-- What the server holds, as far as it was accepted. -/
def Holds (a : LinkView) (acked : Entries) : Prop := ∀ k,
  a.table k = (Entries.entry (acked ++ a.down.filterMap granted) k).map (·.1.name) ∧
  a.bound k = (Entries.entry (acked ++ a.down.filterMap granted) k).toList.map Prod.snd

/-- What the client has had acknowledged, and what the server holds. -/
structure Ledger (s : Link) (todo : List ClientService) (acked : Entries) : Prop where
  desired : s.client.services.desired.map (·.registration)
    = acked.map Prod.fst ++ todo.map (·.registration)
  noted : ∀ k, s.view.noted k = (acked.entry k).toList.map Prod.snd
  distinct : (Entries.ids (acked ++ s.view.down.filterMap granted)).Nodup
  held : s.server.phase = .running → Holds s.view acked

/-- The state of the link during the exchange. -/
structure Exchange (s : Link) (todo : List ClientService) (sent : Bool) : Prop where
  answers : s.answers = []
  up : ∀ p ∈ s.up, ∃ r : Request, p = ⟨.registerService r.item, some r⟩
  down : ∀ p ∈ s.down, p.about = none → p.msg.isNotice = true
  outstanding : Enrol.outstanding s.view = asked todo sent
  decided : ∀ p ∈ s.view.down, p ∈ s.view.verdicts
  ledger : ∃ acked, Ledger s todo acked

/-- The link when the client enters its select loop. -/
structure Fresh (s : Link) : Prop where
  answers : s.answers = []
  live : ∀ k, s.view.live k = none
  dead : s.view.dead = ∅
  outstanding : Enrol.outstanding s.view = []
  active : ∀ service ∈ s.client.services.desired,
    s.client.services.active.lookup service.id = some service
  settled : s.server.phase = .running → Enrol.Settled (·.serviceId) (·.name) s.view

/-! ### The server during the exchange -/

/-- The moves of the server. -/
def Served (m : LinkMove) : Prop :=
  m = .stutter ∨ m = .serve ∨ (∃ r, m = .refuse r) ∨ m = .crash

variable {s t : Link} {a b : LinkView} {correlated : Bool} {acked : Entries}
variable {m : LinkMove}

/-- **The server enters what it accepts**, and accepts no id twice. -/
theorem holds_step (h : Moves correlated m a b) (hm : Served m)
    (hup : ∀ c ∈ a.up, ∃ r, c = .enter r)
    (hd : (Entries.ids (acked ++ a.down.filterMap granted)).Nodup) (hheld : Holds a acked) :
    (Entries.ids (acked ++ b.down.filterMap granted)).Nodup ∧ (m ≠ .crash → Holds b acked) := by
  cases h with
  | stutter => exact ⟨hd, fun _ => hheld⟩
  | crash => exact ⟨hd, fun hne => absurd rfl hne⟩
  | @accept _ r bind rest hu htable =>
      have hnew : Entries.entry (acked ++ a.down.filterMap granted) r.item.serviceId = none := by
        have htab := (hheld r.item.serviceId).1
        rw [htable] at htab
        exact Option.map_eq_none_iff.mp htab.symm
      have hlist : acked ++ (a.down ++ [(r, Except.ok bind)]).filterMap granted
          = (acked ++ a.down.filterMap granted) ++ [(r.item, bind)] := by
        simp [granted]
      dsimp only
      rw [hlist]
      refine ⟨Entries.nodup_append hd hnew, fun _ k => ?_⟩
      dsimp only
      rw [hlist, Entries.entry_append hnew, Function.update_apply, Function.update_apply]
      split_ifs with hk
      · rw [(hheld r.item.serviceId).2, hnew]
        exact ⟨rfl, rfl⟩
      · exact hheld k
  | refuse =>
      have hlist (r : Request) (e : TunnelError) :
          (a.down ++ [(r, Except.error e)]).filterMap granted = a.down.filterMap granted := by
        simp [granted]
      dsimp only [Holds]
      simp only [hlist]
      exact ⟨hd, fun _ => hheld⟩
  | remove hu =>
      obtain ⟨r, hr⟩ := hup _ (hu ▸ List.mem_cons_self)
      cases hr
  | enter | forget | bury | leave | expire | commit | undo | undoDead | refused | refusedDead
  | refusedSlot => simp [Served] at hm

theorem served_of_cause {e : LinkEvent} (he : e.isServers = true) (h : Cause s e t m) :
    Served m := by
  cases m with
  | stutter => exact .inl rfl
  | serve => exact .inr (.inl rfl)
  | refuse r => exact .inr (.inr (.inl ⟨r, rfl⟩))
  | crash => exact .inr (.inr (.inr rfl))
  | enter r | forget k | bury k =>
      obtain ⟨service, o, now, rfl, -⟩ := h
      cases he
  | leave k cleared lost =>
      obtain ⟨o, now, rfl, -⟩ := h
      cases he
  | expire ks =>
      obtain ⟨now, rfl, -⟩ := h
      cases he
  | settle lost =>
      obtain ⟨o, rfl, -⟩ := h
      cases he

theorem refines_of_isServers (hw : Wired s) {e : LinkEvent} (he : e.isServers = true)
    (h : s.step e = some t) : Refines s e t := by
  cases e with
  | serve os o => exact refines_serve hw h
  | server e => exact refines_server hw h
  | _ => cases he

/-- The server touches neither the client nor the answers. -/
theorem isServers_frame {e : LinkEvent} (he : e.isServers = true) (h : s.step e = some t) :
    t.client = s.client ∧ t.answers = s.answers ∧ ∀ p ∈ t.up, p ∈ s.up := by
  cases e with
  | serve os o =>
      simp only [step] at h
      split at h
      · rename_i packet up hup
        obtain ⟨v, writes, packets, -, -, rfl⟩ := serveStep_eq_some h
        refine ⟨rfl, rfl, fun p hp => ?_⟩
        dsimp only at hp
        split_ifs at hp
        · exact hp
        · exact hup ▸ List.mem_cons_of_mem _ hp
      · cases h
  | server e =>
      simp only [step] at h
      split_ifs at h
      obtain ⟨v, writes, packets, -, -, rfl⟩ := serverStep_eq_some h
      exact ⟨rfl, rfl, fun p hp => hp⟩
  | _ => cases he

/-- A server that has ended stays so. -/
theorem running_of_step (hw : Wired s) {e : LinkEvent} (h : s.step e = some t)
    (ht : t.server.phase = .running) : s.server.phase = .running := by
  cases e with
  | serve os o =>
      simp only [step] at h
      split at h
      · obtain ⟨v, writes, packets, hstep, -, rfl⟩ := serveStep_eq_some h
        exact (Server.step_incoming hstep).1
      · cases h
  | server e =>
      simp only [step] at h
      split_ifs at h with hown
      obtain ⟨v, writes, packets, hstep, -, rfl⟩ := serverStep_eq_some h
      exact (Server.step_own hown hw.queue hstep).1.running ht
  | register service o now | unregister id o now =>
      obtain ⟨c, fx, packets, -, -, rfl⟩ := clientStep_eq_some h
      exact ht
  | deliver o =>
      simp only [step] at h
      split at h
      · obtain ⟨c, fx, packets, -, -, rfl⟩ := clientStep_eq_some h
        exact ht
      · cases h
  | client e =>
      simp only [step] at h
      split_ifs at h
      obtain ⟨c, fx, packets, -, -, rfl⟩ := clientStep_eq_some h
      exact ht

/-- Asked only for registrations, the server sends answers and notices. -/
theorem down_of_isServers (hw : Wired s) {e : LinkEvent} (he : e.isServers = true)
    (hup : ∀ p ∈ s.up, ∃ r : Request, p = ⟨.registerService r.item, some r⟩)
    (h : s.step e = some t) :
    ∀ p ∈ t.down, p ∈ s.down ∨ (p.about = none → p.msg.isNotice = true) := by
  intro p hp
  cases e with
  | serve os o =>
      simp only [step] at h
      split at h
      · rename_i packet up hu
        obtain ⟨v, writes, packets, hstep, hcarry, rfl⟩ := serveStep_eq_some h
        obtain ⟨r, hr⟩ := hup packet (hu ▸ List.mem_cons_self)
        rcases List.mem_append.mp hp with hp | hp
        · exact .inl hp
        · obtain ⟨msg, -, rfl⟩ := mem_carry hcarry p hp
          exact .inr fun hnone => by simp [hr] at hnone
      · cases h
  | server e =>
      simp only [step] at h
      split_ifs at h with hown
      obtain ⟨v, writes, packets, hstep, hcarry, rfl⟩ := serverStep_eq_some h
      obtain ⟨-, hwrites⟩ := Server.step_own hown hw.queue hstep
      rcases List.mem_append.mp hp with hp | hp
      · exact .inl hp
      · obtain ⟨msg, hmem, rfl⟩ := mem_carry hcarry p hp
        rcases hwrites with rfl | ⟨m', o'', -, rfl, hnotice⟩
        · cases hmem
        · obtain ⟨rfl, rfl⟩ := Prod.mk.inj (List.mem_singleton.mp hmem)
          exact .inr fun _ => hnotice
  | _ => cases he

variable {todo : List ClientService} {sent : Bool}

theorem view_up_of_registrations
    (hup : ∀ p ∈ s.up, ∃ r : Request, p = ⟨.registerService r.item, some r⟩) :
    ∀ c ∈ s.view.up, ∃ r, c = .enter r := by
  intro c hc
  obtain ⟨p, hp, hcmd⟩ := List.mem_filterMap.mp hc
  obtain ⟨r, rfl⟩ := hup p hp
  exact ⟨r, (Option.some.inj hcmd).symm⟩

theorem down_of_quiet (h : Moves correlated m a b) (hm : m = .stutter ∨ m = .crash) :
    b.down = a.down := by
  rcases hm with rfl | rfl
  · cases h
    rfl
  · cases h
    rfl

/-- The server keeps the ledger. -/
theorem Ledger.servers (hl : Ledger s todo acked) (hw : Wired s) {e : LinkEvent}
    (he : e.isServers = true)
    (hup : ∀ p ∈ s.up, ∃ r : Request, p = ⟨.registerService r.item, some r⟩)
    (h : s.step e = some t) : Ledger t todo acked := by
  obtain ⟨m, hmove, hcause⟩ := refines_of_isServers hw he h
  obtain ⟨hclient, -, -⟩ := isServers_frame he h
  have hnoted : t.view.noted = s.view.noted := by
    simp [view, hclient]
  refine ⟨hclient ▸ hl.desired, hnoted ▸ hl.noted, ?_, ?_⟩
  · by_cases hrun : s.server.phase = .running
    · exact (holds_step hmove (served_of_cause he hcause) (view_up_of_registrations hup)
        hl.distinct (hl.held hrun)).1
    · -- a server that has ended answers nothing
      have hserve : ∀ os o, e ≠ .serve os o := by
        rintro os o rfl
        simp only [step] at h
        split at h
        · obtain ⟨v, writes, packets, hstep, -, -⟩ := serveStep_eq_some h
          exact hrun (Server.step_incoming hstep).1
        · cases h
      have hdown : t.view.down = s.view.down := by
        rcases served_of_cause he hcause with rfl | rfl | ⟨r, rfl⟩ | rfl
        · exact down_of_quiet hmove (.inl rfl)
        · obtain ⟨os, o, rfl⟩ := hcause
          exact absurd rfl (hserve os o)
        · obtain ⟨os, o, v, code, rfl, -⟩ := hcause
          exact absurd rfl (hserve os o)
        · exact down_of_quiet hmove (.inr rfl)
      rw [hdown]
      exact hl.distinct
  · intro hrun
    have hne : m ≠ .crash := by
      rintro rfl
      exact hcause hrun
    exact (holds_step hmove (served_of_cause he hcause) (view_up_of_registrations hup)
      hl.distinct (hl.held (running_of_step hw h hrun))).2 hne

/-- The server keeps the exchange. -/
theorem Exchange.servers (hx : Exchange s todo sent) (hw : Wired s) {e : LinkEvent}
    (he : e.isServers = true) (h : s.step e = some t) : Exchange t todo sent := by
  obtain ⟨m, hmove, hcause⟩ := refines_of_isServers hw he h
  obtain ⟨-, hanswers, hup⟩ := isServers_frame he h
  have hserved := served_of_cause he hcause
  refine ⟨hanswers.trans hx.answers, fun p hp => hx.up p (hup p hp), ?_, ?_,
    Enrol.decided_step hx.decided hmove, ?_⟩
  · intro p hp hnone
    rcases down_of_isServers hw he hx.up h p hp with hp | hnotice
    · exact hx.down p hp hnone
    · exact hnotice hnone
  · rcases Enrol.outstanding_step hmove with ⟨r, rfl, -⟩ | ⟨lost, r, v, rest, rfl, -⟩ | ⟨-, hout⟩
    · simp [Served] at hserved
    · simp [Served] at hserved
    · exact hout.trans hx.outstanding
  · obtain ⟨acked, hl⟩ := hx.ledger
    exact ⟨acked, hl.servers hw he hx.up h⟩

/-! ### The client during the exchange -/

/-- A client step that changes neither Services nor binds and sends nothing
keeps the exchange. -/
theorem Exchange.kept {c : Client} (hx : Exchange s todo sent) (hkept : s.client.Kept c) :
    Exchange { s with client := c } todo sent := by
  have hview : ({ s with client := c } : Link).view = s.view := by
    simp [view, hkept.services, Client.bindsOf_congr hkept.binds]
  refine ⟨hx.answers, hx.up, hx.down, hview ▸ hx.outstanding, hview ▸ hx.decided, ?_⟩
  obtain ⟨acked, hl⟩ := hx.ledger
  refine ⟨acked, ?_, ?_, ?_, ?_⟩
  · dsimp only
    rw [hkept.services]
    exact hl.desired
  · rw [hview]
    exact hl.noted
  · rw [hview]
    exact hl.distinct
  · rw [hview]
    exact hl.held

/-- The next `RegisterService` is the only request outstanding. -/
theorem Exchange.ask {service : ClientService} {rest : List ClientService}
    (hx : Exchange s (service :: rest) false) (phase : Phase) :
    Exchange { s with
      client := { s.client with phase := phase }
      up := s.up ++ [⟨.registerService service.registration,
        some ⟨service.registration, none⟩⟩] } (service :: rest) true := by
  obtain ⟨acked, hl⟩ := hx.ledger
  refine ⟨hx.answers, ?_, hx.down, ?_, hx.decided, acked, hl.desired, hl.noted, hl.distinct,
    hl.held⟩
  · intro p hp
    rcases List.mem_append.mp hp with hp | hp
    · exact hx.up p hp
    · exact ⟨⟨service.registration, none⟩, List.mem_singleton.mp hp⟩
  · have hout := hx.outstanding
    simp only [asked, Bool.false_eq_true, if_false] at hout
    simp only [Enrol.outstanding, view, List.append_eq_nil_iff] at hout
    simp [Enrol.outstanding, view, asked, Packet.command, hout.1, hout.2]

/-- The acknowledgement moves its entry from the channel to the client. -/
theorem Exchange.acknowledged {service : ClientService} {rest : List ClientService}
    {b : EffectiveBind} {down : List Packet} {c : Client}
    (hx : Exchange s (service :: rest) true)
    (hdown : s.view.down = (⟨service.registration, none⟩, .ok b) :: down.filterMap Packet.answer)
    (hsub : ∀ p ∈ down, p ∈ s.down)
    (hservices : c.services = s.client.services)
    (hbinds : c.counters.binds
      = s.client.counters.binds ++ [⟨s.client.sessionId, service.id, b⟩]) :
    Exchange { s with client := c, down := down } rest false := by
  obtain ⟨acked, hl⟩ := hx.ledger
  -- the answered request was the only one outstanding
  have hrest : down.filterMap Packet.answer = [] ∧ s.view.up.filterMap Enrol.Command.request = [] := by
    have hout := hx.outstanding
    rw [Enrol.outstanding, hdown, List.map_cons, List.cons_append] at hout
    have htail := (List.cons.inj hout).2
    simpa [asked] using htail
  have hnew : Entries.entry acked service.id = none := by
    have hd := hl.distinct
    rw [hdown, hrest.1] at hd
    rw [Entries.entry_eq_none_iff]
    intro hmem
    simp only [Entries.ids, List.map_append, List.nodup_append] at hd
    exact hd.2.2 _ hmem service.id (by simp [granted, ClientService.registration]) rfl
  have hlist : (acked ++ [(service.registration, b)]) ++
      (down.filterMap Packet.answer).filterMap granted
      = acked ++ s.view.down.filterMap granted := by
    rw [hdown]
    simp [granted]
  refine ⟨hx.answers, hx.up, fun p hp => hx.down p (hsub p hp), ?_, ?_,
    acked ++ [(service.registration, b)], ?_, ?_, ?_, ?_⟩
  · simp only [view] at hrest
    simp [Enrol.outstanding, view, asked, hrest.1, hrest.2]
  · intro p hp
    simp only [view] at hp
    rw [hrest.1] at hp
    cases hp
  · dsimp only
    rw [hservices, hl.desired]
    simp
  · intro k
    have hn := hl.noted
    simp only [view] at hn
    simp only [view]
    rw [Client.bindsOf_append hbinds, Function.update_apply, Entries.entry_append hnew,
      show service.registration.serviceId = service.id from rfl]
    rcases eq_or_ne k service.id with rfl | hk
    · rw [if_pos rfl, if_pos rfl, hn, hnew]
      rfl
    · rw [if_neg hk, if_neg hk]
      exact hn k
  · simp only [view]
    rw [hlist]
    exact hl.distinct
  · intro hrun k
    simp only [view]
    rw [hlist]
    exact hl.held hrun k

/-- With distinct ids, the desired Services are the active ones. -/
theorem lookup_activateInitial {services : ServiceState} {l : Entries}
    (hdesired : services.desired.map (·.registration) = l.map Prod.fst) (hl : l.ids.Nodup) :
    (∀ service ∈ services.desired,
      services.activateInitial.active.lookup service.id = some service) ∧
    ∀ k, services.activateInitial.enrolled k = (l.entry k).map Prod.fst := by
  have hids : (services.desired.map (·.id)).Nodup := by
    have hmap : services.desired.map (·.id) = l.ids :=
      calc services.desired.map (·.id)
          = (services.desired.map (·.registration)).map (·.serviceId) := by
            rw [List.map_map]
            rfl
        _ = (l.map Prod.fst).map (·.serviceId) := by rw [hdesired]
        _ = l.ids := by
            rw [List.map_map]
            rfl
    rw [hmap]
    exact hl
  have hlookup : ∀ service ∈ services.desired,
      services.activateInitial.active.lookup service.id = some service := by
    intro service hmem
    refine Table.lookup_ofList ?_ (List.mem_map.mpr ⟨service, hmem, rfl⟩)
    rw [List.NodupKeys, List.keys, List.map_map]
    exact hids
  refine ⟨hlookup, fun k => ?_⟩
  rcases hk : l.entry k with - | ⟨register, b⟩
  · rcases ha : services.activateInitial.active.lookup k with - | service
    · simp [ServiceState.enrolled, ha]
    · -- an active Service is a desired one, so its id was acknowledged
      obtain ⟨other, hmem, heq⟩ := List.mem_map.mp (Table.mem_of_lookup_ofList ha)
      cases heq
      have hreg : service.registration ∈ l.map Prod.fst := hdesired ▸ List.mem_map_of_mem hmem
      obtain ⟨e, he, hfst⟩ := List.mem_map.mp hreg
      refine absurd (List.mem_map.mpr ⟨e, he, ?_⟩) (Entries.entry_eq_none_iff.mp hk)
      rw [hfst]
      rfl
  · have hmem := List.mem_of_find?_eq_some hk
    have hid : register.serviceId = k := by simpa using List.find?_some hk
    have hreg : register ∈ services.desired.map (·.registration) :=
      hdesired ▸ List.mem_map.mpr ⟨_, hmem, rfl⟩
    obtain ⟨service, hservice, rfl⟩ := List.mem_map.mp hreg
    obtain rfl : service.id = k := hid
    rw [ServiceState.enrolled, hlookup service hservice]
    rfl

/-- Nothing is on its way once every desired Service is acknowledged. -/
theorem Exchange.channels_nil (hx : Exchange s [] sent) : s.view.up = [] ∧ s.view.down = [] := by
  have hout := hx.outstanding
  have hnil : asked [] sent = [] := by
    cases sent <;> rfl
  rw [hnil, Enrol.outstanding, List.append_eq_nil_iff, List.map_eq_nil_iff] at hout
  refine ⟨?_, hout.1⟩
  rw [List.eq_nil_iff_forall_not_mem]
  intro c hc
  obtain ⟨r, rfl⟩ := view_up_of_registrations hx.up c hc
  have hnot := List.filterMap_eq_nil_iff.mp hout.2 _ hc
  cases hnot

/-- **The exchange ends in agreement.** -/
theorem Exchange.fresh (hx : Exchange s [] sent)
    (hinitial : s.client.services.transactions = [] ∧ s.client.services.abandoned = ∅) :
    Fresh { s with client := s.client.becomeReady } := by
  obtain ⟨acked, hl⟩ := hx.ledger
  obtain ⟨hup, hdown⟩ := hx.channels_nil
  have hentries : acked ++ s.view.down.filterMap granted = acked := by
    rw [hdown]
    exact List.append_nil acked
  have hdesired : s.client.services.desired.map (·.registration) = acked.map Prod.fst := by
    have hd := hl.desired
    rwa [List.map_nil, List.append_nil] at hd
  obtain ⟨hactive, henrolled⟩ := lookup_activateInitial hdesired (hentries ▸ hl.distinct)
  have hlive : ∀ k, s.client.services.live k = none := by
    intro k
    obtain ⟨hpending, hvalues⟩ := List.append_eq_nil_iff.mp hinitial.1
    rw [ServiceState.live, ServiceState.transaction_of_pending_none
      (Option.toList_eq_nil_iff.mp hpending)]
    rcases hlook : s.client.services.inFlight.lookup k with - | txn
    · rfl
    · have hmem := Table.mem_values.mpr ⟨k, hlook⟩
      rw [hvalues] at hmem
      cases hmem
  refine ⟨hx.answers, hlive, ?_, ?_, hactive, ?_⟩
  · ext k
    simp only [view, Client.becomeReady, ServiceState.mem_dead, ServiceState.activateInitial,
      hinitial.2, AList.lookup_empty]
    simp
  · simp only [view] at hup hdown
    simp [Enrol.outstanding, view, hup, hdown]
  · intro hrun k
    have hholds := hl.held hrun k
    rw [hentries] at hholds
    have hnoted := hl.noted k
    simp only [view] at hup hdown hholds hnoted
    have hportion : Enrol.portion (·.serviceId) k
        ({ s with client := s.client.becomeReady } : Link).view
        = { live := none
            active := (acked.entry k).map Prod.fst
            noted := (acked.entry k).toList.map Prod.snd
            up := []
            down := []
            table := (acked.entry k).map (·.1.name)
            bound := (acked.entry k).toList.map Prod.snd } := by
      have hlive' : s.client.becomeReady.services.live k = none := hlive k
      have henrolled' : s.client.becomeReady.services.enrolled k
        = (acked.entry k).map Prod.fst := henrolled k
      have hnoted' : s.client.becomeReady.bindsOf k = (acked.entry k).toList.map Prod.snd := hnoted
      simp [Enrol.portion, view, hlive', henrolled', hnoted', hholds.1, hholds.2, hup, hdown]
    rw [hportion]
    rcases acked.entry k with - | ⟨register, b⟩
    · refine ⟨fun _ _ => .inl ⟨rfl, rfl⟩, fun _ hr => ?_, fun _ hs => ?_, fun _ => rfl,
        fun _ => rfl⟩
      · cases hr
      · cases hs
    · refine ⟨fun _ hidle => ?_, fun _ hr => ?_, fun _ hs => ?_, fun htable => ?_,
        fun hactive => ?_⟩
      · cases hidle
      · cases hr
      · cases hs
        exact ⟨rfl, rfl, rfl, b, rfl, rfl⟩
      · cases htable
      · cases hactive

/-- **What the client reads during the exchange**: the answer to its request,
or a notice. -/
theorem deliver_registering (hw : Wired s) {service : ClientService} {rest : List ClientService}
    (hs : s.client.phase = .registering (service :: rest) true)
    (hx : Exchange s (service :: rest) true) {o : WriteOutcome}
    (h : s.step (.deliver o) = some t) :
    ∃ packet down, s.down = packet :: down ∧
      t = { s with client := s.client.initialResponse service rest packet.msg, down := down } ∧
      ((∃ v, packet = ⟨Server.response s.server.negotiated service.id v,
          some ⟨service.registration, none⟩⟩) ∨
        (packet.about = none ∧ packet.msg.isNotice = true)) := by
  simp only [step] at h
  split at h
  swap
  · cases h
  rename_i packet down hdown
  obtain ⟨c, fx, packets, hstep, hcarry, hteq⟩ := clientStep_eq_some h
  simp only [Client.step, hs] at hstep
  obtain ⟨rfl, rfl⟩ := Prod.mk.inj (Option.some.inj hstep)
  obtain rfl := Option.some.inj hcarry
  refine ⟨packet, down, hdown, by simpa using hteq, ?_⟩
  have hmem : packet ∈ s.down := hdown ▸ List.mem_cons_self
  rcases hw.down packet hmem with ⟨r, v, hpacket⟩ | ⟨hnone, -⟩
  · -- an answer is to the only request outstanding
    have hout := hx.outstanding
    rw [Enrol.outstanding, view_down hdown hpacket, List.map_cons, List.cons_append] at hout
    obtain rfl : r = ⟨service.registration, none⟩ := (List.cons.inj hout).1
    exact .inl ⟨v, hpacket⟩
  · exact .inr ⟨hnone, hx.down packet hmem hnone⟩

/-- The client after the acknowledgement it waits for. -/
theorem initialResponse_accepted (c : Client) (service : ClientService)
    (rest : List ClientService) (b : EffectiveBind) :
    c.initialResponse service rest (.registerAck ⟨service.id, b⟩)
      = ({ c with counters := { c.counters with
          binds := c.counters.binds ++ [BindEntry.mk c.sessionId service.id b] } }).continueRegistering
        rest := by
  simp [Client.initialResponse]

theorem initialResponse_other (c : Client) (service : ClientService) (rest : List ClientService)
    {m : Message} (hm : ∀ ack, m ≠ .registerAck ack) :
    c.initialResponse service rest m = { c with phase := .returned (.error .authorization) } := by
  unfold Client.initialResponse
  split
  · exact absurd rfl (hm _)
  · rfl

/-- The exchange goes on, or it ends in a fresh Session. -/
theorem Exchange.continue (hx : Exchange s todo false) (hphase : s.client.phase ≠ .ready)
    (hsound : s.client.Sound correlated) :
    (∀ todo' sent', (s.client.continueRegistering todo).phase = .registering todo' sent' →
      Exchange { s with client := s.client.continueRegistering todo } todo' sent') ∧
    ((s.client.continueRegistering todo).phase = .ready →
      Fresh { s with client := s.client.continueRegistering todo }) := by
  cases todo with
  | nil =>
      refine ⟨?_, fun _ => hx.fresh (hsound.initial hphase)⟩
      intro todo' sent' hp
      cases hp
  | cons service rest =>
      refine ⟨?_, ?_⟩
      · intro todo' sent' hp
        cases hp
        exact hx.kept ⟨⟨rfl, rfl, rfl, fun _ => .inl⟩, rfl, rfl⟩
      · intro hp
        cases hp

/-- What the exchange becomes: itself, or a fresh Session. -/
def Exchanged (t : Link) : Prop :=
  (∀ todo sent, t.client.phase = .registering todo sent → Exchange t todo sent) ∧
  (t.client.phase = .ready → Fresh t)

/-- A Session that is over owes nothing. -/
theorem exchanged_of_closed (h : t.client.phase.isOpen = false) : Exchanged t := by
  refine ⟨fun todo sent hp => ?_, fun hp => ?_⟩ <;> rw [hp] at h <;> cases h

/-- Only a client that has sent its request reads. -/
theorem registering_of_deliver (hs : s.client.phase = .registering todo sent)
    {o : WriteOutcome} (h : s.step (.deliver o) = some t) :
    ∃ service rest, todo = service :: rest ∧ sent = true := by
  simp only [step] at h
  split at h
  · obtain ⟨c, fx, packets, hstep, -, -⟩ := clientStep_eq_some h
    rcases Client.step_registering hs hstep with ⟨hown, -⟩ | ⟨_, _, _, he, -⟩ |
      ⟨service, rest, _, _, -, htodo, hsent, -⟩ | ⟨_, he, -⟩
    · cases hown
    · cases he
    · exact ⟨service, rest, htodo, hsent⟩
    · cases he
  · cases h

theorem Exchange.deliver (hx : Exchange s todo sent) (hw : Wired s)
    (hs : s.client.phase = .registering todo sent) {o : WriteOutcome}
    (h : s.step (.deliver o) = some t) : Exchanged t := by
  obtain ⟨service, rest, rfl, rfl⟩ := registering_of_deliver hs h
  obtain ⟨packet, down, hdown, rfl, ⟨v, hpacket⟩ | ⟨hnone, hnotice⟩⟩ :=
    deliver_registering hw hs hx h
  · have hsound := hw.client (by rw [hs]; rfl)
    have hhead := view_down hdown hpacket
    cases v with
    | accepted b =>
        have hmsg : packet.msg = .registerAck ⟨service.id, b⟩ := by
          rw [hpacket]
          rfl
        rw [hmsg, initialResponse_accepted]
        have hx' := hx.acknowledged (c := { s.client with counters := { s.client.counters with
            binds := s.client.counters.binds ++ [BindEntry.mk s.client.sessionId service.id b] } })
          hhead (fun p hp => hdown ▸ List.mem_cons_of_mem _ hp) rfl rfl
        exact hx'.continue (by simp [hs]) (hsound.counters _)
    | refused code =>
        apply exchanged_of_closed
        dsimp only
        rw [initialResponse_other]
        · rfl
        · intro ack
          rw [hpacket]
          unfold Server.response
          dsimp only
          split_ifs <;> simp
  · apply exchanged_of_closed
    dsimp only
    rw [initialResponse_other]
    · rfl
    · rintro ack hack
      rw [hack] at hnotice
      cases hnotice

theorem Exchange.client (hx : Exchange s todo sent)
    (hs : s.client.phase = .registering todo sent) {e : ClientEvent}
    (h : s.step (.client e) = some t) : Exchanged t := by
  simp only [step] at h
  split_ifs at h with hown
  obtain ⟨c, fx, packets, hstep, hcarry, rfl⟩ := clientStep_eq_some h
  rcases Client.step_registering hs hstep with ⟨-, hkept, hphase, -, rfl⟩ |
    ⟨service, rest, o, rfl, rfl, rfl, hnext⟩ | ⟨_, _, _, _, rfl, -⟩ | ⟨err, rfl, hphase, -⟩
  · obtain rfl := Option.some.inj hcarry
    simp only [List.append_nil, List.map_nil]
    refine ⟨?_, ?_⟩
    · intro todo' sent' hp
      rw [hphase, hs] at hp
      cases hp
      exact hx.kept hkept
    · intro hp
      rw [hphase, hs] at hp
      cases hp
  · -- the write completes, or the Session is over
    unfold Client.registerNext at hnext
    dsimp only at hnext
    split at hnext
    · rename_i hok
      obtain ⟨rfl, rfl⟩ := Prod.mk.inj hnext
      cases o with
      | done =>
          obtain rfl := carry_done hcarry
          refine ⟨?_, ?_⟩
          · intro todo' sent' hp
            cases hp
            simp only [List.map_nil, List.append_nil]
            exact hx.ask _
          · intro hp
            cases hp
      | failed accepted kind => simp [handshakeWrite] at hok
      | cut accepted => simp [handshakeWrite] at hok
    · obtain ⟨rfl, rfl⟩ := Prod.mk.inj hnext
      exact exchanged_of_closed rfl
  · cases hown
  · apply exchanged_of_closed
    dsimp only
    rw [hphase]
    rfl

/-- **A step of the exchange.** -/
theorem Exchange.step (hx : Exchange s todo sent) (hw : Wired s)
    (hs : s.client.phase = .registering todo sent) {e : LinkEvent} (h : s.step e = some t) :
    Exchanged t := by
  cases e with
  | register service o now | unregister id o now =>
      obtain ⟨c, fx, packets, hstep, -, -⟩ := clientStep_eq_some h
      simp only [Client.step, hs, reduceCtorEq] at hstep
  | deliver o => exact hx.deliver hw hs h
  | client e => exact hx.client hs h
  | serve os o | server e =>
      obtain ⟨hclient, -, -⟩ := isServers_frame rfl h
      refine ⟨?_, ?_⟩
      · intro todo' sent' hp
        rw [hclient, hs] at hp
        cases hp
        exact hx.servers hw rfl h
      · intro hp
        rw [hclient, hs] at hp
        cases hp

/-- Before the first request nothing is held, noted or on its way. -/
theorem exchanged_init (c : LinkConfig) : Exchanged (init c) := by
  rcases Client.start_cases c.clientPolicy c.sessionId
    (c.negotiated.has capabilityRegisterReject) (.new c.desired) c.clientCounters [] with
    ⟨-, hclosed, -⟩ | ⟨pre, hpre, hsound, hphase, hdesired, -, hbinds⟩
  · exact exchanged_of_closed hclosed
  · have hclient : (init c).client = pre.continueRegistering c.desired := congrArg Prod.fst hpre
    have hinit : init c = { init c with client := pre.continueRegistering c.desired } := by
      rw [← hclient]
    have hx : Exchange { init c with client := pre } c.desired false := by
      refine ⟨rfl, ?_, ?_, rfl, ?_, [], ?_, ?_, ?_, ?_⟩
      · simp [init]
      · simp [init]
      · simp [init, view]
      · simp [hdesired, ServiceState.new]
      · intro k
        simp [view, Client.bindsOf, hbinds, c.clientBinds, Entries.entry]
      · simp [init, view, Entries.ids]
      · intro _ k
        have hfresh : c.serverCounters.binds.filter (·.session = c.sessionId) = [] := by
          rw [List.filter_eq_nil_iff]
          intro b hb
          simpa using c.fresh b hb
        simp [init, view, Server.bindsOf, Server.ownBinds, hfresh, Entries.entry]
    rw [hinit]
    exact hx.continue hphase hsound

end Link

end Eggtunnel
