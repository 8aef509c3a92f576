/-
Eggtunnel/Phases.lean

How invariants are proved over whole runs of a link.

A client goes through the initial exchange, its select loop and the end of the
Session, and never back.  `ready_inv` is the rule for what holds in the select
loop: it holds of a fresh Session and is kept by the steps of the loop.
`always_inv` carries a consequence of it to every state of the run, the end of
the Session included.
-/
import Eggtunnel.Exchange

namespace Eggtunnel

/-! ### The step that ends a Session -/

namespace Client

variable {s t : Client} {fx : Effects}

theorem onIncoming_closing {m : Message} {o : WriteOutcome} (hs : s.phase = .ready)
    (ht : (s.onIncoming m o).1.phase.isOpen = false) : (s.onIncoming m o).2 = {} := by
  have hopen {u : Client} (hu : u.phase = s.phase) (hclosed : u.phase.isOpen = false) : False := by
    rw [hu, hs] at hclosed
    cases hclosed
  unfold onIncoming at ht ⊢
  split at ht
  · rfl
  · rfl
  · rfl
  · unfold onRegisterAck at ht ⊢
    dsimp only at ht ⊢
    split at ht
    · rfl
    · exact (hopen rfl ht).elim
    · exact (hopen rfl ht).elim
    · exact (hopen rfl ht).elim
  · unfold onError at ht ⊢
    split at ht
    · exact (hopen rfl ht).elim
    · rfl
  · unfold onRegisterReject at ht ⊢
    split_ifs at ht ⊢
    · split at ht
      · exact (hopen rfl ht).elim
      · exact (hopen rfl ht).elim
      · rfl
    · rfl
  · rfl
  · rfl

theorem onRegister_closing {service : ClientService} {caller : CallerId} {o : WriteOutcome}
    {now : Instant} (hs : s.phase = .ready)
    (ht : (s.onRegister service caller o now).1.phase.isOpen = false) :
    o ≠ .done ∧ (s.onRegister service caller o now).2.writes
      = [(.registerService service.registration, o)] := by
  have hopen {u : Client} (hu : u.phase = s.phase) (hclosed : u.phase.isOpen = false) : False := by
    rw [hu, hs] at hclosed
    cases hclosed
  unfold onRegister at ht ⊢
  split_ifs at ht ⊢
  · exact (hopen rfl ht).elim
  · exact (hopen rfl ht).elim
  · split at ht
    · exact (hopen rfl ht).elim
    · unfold writeRegistration at ht ⊢
      dsimp only at ht ⊢
      cases o with
      | done =>
          rw [writeBudgeted_done] at ht
          exact (hopen rfl ht).elim
      | cut accepted =>
          refine ⟨by simp, ?_⟩
          rw [writeBudgeted_cut] at ht ⊢
          dsimp only
          split <;> rfl
      | failed accepted kind =>
          refine ⟨by simp, ?_⟩
          rw [writeBudgeted_failed]
          cases kind <;> rfl

theorem onUnregister_writes (s : Client) (id : ServiceId) (caller : CallerId) (o : WriteOutcome) :
    (s.onUnregister id caller o).2.writes = [(.unregisterService ⟨id⟩, o)] := by
  unfold onUnregister
  dsimp only
  split
  · split <;> rfl
  · rfl

/-- No request is among the frames written. -/
def AsksNothing (fx : Effects) : Prop :=
  ∀ m, (m, .done) ∈ fx.writes → ∀ register, m ≠ .registerService register

/-- **The step that ends a Session, and every step after it**, makes no
request, and a frame that ends it answers nobody. -/
theorem step_closing {e : ClientEvent}
    (houtbox : s.phase.isOpen = true → ∀ m ∈ s.outbox, m.isChatter = true)
    (h : s.step e = some (t, fx)) (ht : t.phase.isOpen = false) :
    AsksNothing fx ∧ (e.isOwn = true ∨ (∃ c o now, e = .command c o now) ∨ fx.answers = []) := by
  have hquiet {fx : Effects} (hfx : fx.writes = []) : AsksNothing fx := by
    intro m hm
    rw [hfx] at hm
    cases hm
  cases did_of_step h with
  | registerNext hphase heq =>
      refine ⟨?_, .inl rfl⟩
      unfold registerNext at heq
      dsimp only at heq
      split at heq
      · obtain ⟨rfl, rfl⟩ := Prod.mk.inj heq
        cases ht
      · rename_i hwrite
        obtain ⟨rfl, rfl⟩ := Prod.mk.inj heq
        intro m hm
        obtain ⟨-, rfl⟩ := Prod.mk.inj (List.mem_singleton.mp hm)
        rw [handshakeWrite, writeBudgeted_done] at hwrite
        cases hwrite
  | initialResponse => exact ⟨hquiet rfl, .inr (.inr rfl)⟩
  | incoming hready heq =>
      have hfx := onIncoming_closing hready (congrArg (·.1.phase.isOpen) heq |>.trans ht)
      rw [heq] at hfx
      obtain rfl : fx = {} := hfx
      exact ⟨hquiet rfl, .inr (.inr rfl)⟩
  | register hready heq =>
      refine ⟨?_, .inr (.inl ⟨_, _, _, rfl⟩)⟩
      obtain ⟨hlost, hwrites⟩ :=
        onRegister_closing hready (congrArg (·.1.phase.isOpen) heq |>.trans ht)
      rw [heq] at hwrites
      intro m hm
      rw [show fx.writes = _ from hwrites] at hm
      obtain ⟨-, rfl⟩ := Prod.mk.inj (List.mem_singleton.mp hm)
      exact absurd rfl hlost
  | @unregister id caller o _ _ _ _ heq =>
      refine ⟨?_, .inr (.inl ⟨_, _, _, rfl⟩)⟩
      have hwrites := s.onUnregister_writes id caller o
      rw [heq] at hwrites
      intro m hm
      rw [show fx.writes = _ from hwrites] at hm
      obtain ⟨rfl, -⟩ := Prod.mk.inj (List.mem_singleton.mp hm)
      simp
  | cancelled hready | registrationDeadline hready | outbound hready =>
      refine ⟨?_, .inl rfl⟩
      rcases step_own hready rfl (houtbox (by rw [hready]; rfl)) h with
        ⟨-, -, hnone | ⟨m, o, hwrites, hm⟩⟩ | ⟨now, x, -, -, hnone, -⟩
      · exact hquiet hnone
      · intro m' hm' register
        rw [hwrites] at hm'
        obtain ⟨rfl, -⟩ := Prod.mk.inj (List.mem_singleton.mp hm')
        rintro rfl
        rcases hm with hm | hm <;> cases hm
      · exact hquiet hnone
  | tornDown hphase =>
      obtain ⟨hown, -, hwrites, -⟩ := step_closed (by rw [hphase]; rfl) h
      exact ⟨hquiet hwrites, .inl hown⟩
  | _ => exact ⟨hquiet rfl, .inl rfl⟩

end Client

namespace Link

variable {s t : Link}

/-- No request joins, no caller is told anything and no verdict is lost. -/
structure Closing (a b : LinkView) : Prop where
  outstanding : (Enrol.outstanding b).length ≤ (Enrol.outstanding a).length
  told : b.told = a.told
  verdicts : ∀ v ∈ a.verdicts, v ∈ b.verdicts

theorem Closing.trans {a b c : LinkView} (h : Closing a b) (h' : Closing b c) : Closing a c where
  outstanding := h'.outstanding.trans h.outstanding
  told := h'.told.trans h.told
  verdicts v hv := h'.verdicts v (h.verdicts v hv)

theorem closing_of_served {correlated : Bool} {m : LinkMove} {a b : LinkView}
    (h : Moves correlated m a b) (hm : Served m) : Closing a b := by
  have hout : Enrol.outstanding b = Enrol.outstanding a := by
    rcases Enrol.outstanding_step h with ⟨r, rfl, -⟩ | ⟨lost, r, v, rest, rfl, -⟩ | ⟨-, hout⟩
    · simp [Served] at hm
    · simp [Served] at hm
    · exact hout
  refine ⟨hout ▸ le_rfl, ?_, ?_⟩
  · rcases hm with rfl | rfl | ⟨r, rfl⟩ | rfl <;> cases h <;> rfl
  · intro v hv
    rcases hm with rfl | rfl | ⟨r, rfl⟩ | rfl <;> cases h <;>
      first | exact hv | exact List.mem_append_left _ hv

theorem requests_of_carry {caller : Option CallerId} {fx : Effects} {packets : List Packet}
    (hfx : Client.AsksNothing fx) (hcarry : carry (asking caller) fx.writes = some packets) :
    (packets.filterMap Packet.command).filterMap Enrol.Command.request = [] := by
  rw [List.filterMap_filterMap, List.filterMap_eq_nil_iff]
  intro p hp
  obtain ⟨m, hmem, rfl⟩ := mem_carry hcarry p hp
  cases m with
  | registerService register => exact absurd rfl (hfx _ hmem register)
  | _ => rfl

theorem closing_clientStep (hw : Wired s) {e : ClientEvent} {caller : Option CallerId}
    {source : Source} (h : s.clientStep e caller source = some t)
    (ht : t.client.phase.isOpen = false)
    (hsource : source = .loop ∨ ∃ m o, e = .incoming m o) : Closing s.view t.view := by
  obtain ⟨c, fx, packets, hstep, hcarry, rfl⟩ := clientStep_eq_some h
  obtain ⟨hfx, hanswers⟩ := Client.step_closing (fun hs => (hw.client hs).outbox) hstep ht
  refine ⟨?_, ?_, fun v hv => hv⟩
  · simp [Enrol.outstanding, view, requests_of_carry hfx hcarry]
  · dsimp only [view]
    rcases hsource with rfl | ⟨m, o, rfl⟩
    · simp [Function.comp_def]
    · rcases hanswers with hown | ⟨_, _, _, hcmd⟩ | hnil
      · cases hown
      · cases hcmd
      · rw [hnil, List.map_nil, List.append_nil]

/-- **The step that ends a Session, and every step after it.** -/
theorem closing_of_step (hw : Wired s) {e : LinkEvent} (h : s.step e = some t)
    (ht : t.client.phase.isOpen = false) : Closing s.view t.view := by
  have hservers (he : e.isServers = true) : Closing s.view t.view := by
    obtain ⟨m, hmove, hcause⟩ := refines_of_isServers hw he h
    exact closing_of_served hmove (served_of_cause he hcause)
  cases e with
  | serve os o | server e => exact hservers rfl
  | register service o now =>
      exact closing_clientStep (s := { s with
        nextCaller := s.nextCaller + 1
        requested := s.requested ++ [(s.nextCaller, service)] })
        ⟨hw.up, hw.down, hw.queue, hw.client⟩ h ht (.inl rfl)
  | unregister id o now =>
      exact closing_clientStep (s := { s with nextCaller := s.nextCaller + 1 })
        ⟨hw.up, hw.down, hw.queue, hw.client⟩ h ht (.inl rfl)
  | deliver o =>
      simp only [step] at h
      split at h
      · rename_i packet down hdown
        have hw' : Wired { s with down := down } :=
          ⟨hw.up, fun p hp => hw.down p (hdown ▸ List.mem_cons_of_mem _ hp), hw.queue, hw.client⟩
        have hread : Closing s.view { s with down := down }.view := by
          refine ⟨?_, rfl, fun v hv => hv⟩
          simp only [Enrol.outstanding, view, hdown, List.length_append, List.length_map]
          have hle : (down.filterMap Packet.answer).length
              ≤ ((packet :: down).filterMap Packet.answer).length := by
            rw [List.filterMap_cons]
            split <;> simp
          omega
        exact hread.trans (closing_clientStep hw' h ht (.inr ⟨_, _, rfl⟩))
      · cases h
  | client e =>
      simp only [step] at h
      split_ifs at h
      exact closing_clientStep hw h ht (.inl rfl)

/-- Every step is one of the client, or leaves the client alone. -/
theorem client_of_step {e : LinkEvent} (h : s.step e = some t) :
    t.client = s.client ∨ ∃ ce fx, s.client.step ce = some (t.client, fx) := by
  cases e with
  | serve os o | server e => exact .inl (isServers_frame rfl h).1
  | register service o now | unregister id o now =>
      obtain ⟨c, fx, packets, hstep, -, rfl⟩ := clientStep_eq_some h
      exact .inr ⟨_, fx, hstep⟩
  | deliver o =>
      simp only [step] at h
      split at h
      · obtain ⟨c, fx, packets, hstep, -, rfl⟩ := clientStep_eq_some h
        exact .inr ⟨_, fx, hstep⟩
      · cases h
  | client e =>
      simp only [step] at h
      split_ifs at h
      obtain ⟨c, fx, packets, hstep, -, rfl⟩ := clientStep_eq_some h
      exact .inr ⟨_, fx, hstep⟩

/-- The phases follow one another: an open Session was open before, and one in
its select loop stays there. -/
theorem open_of_step {e : LinkEvent} (h : s.step e = some t)
    (ht : t.client.phase.isOpen = true) :
    s.client.phase.isOpen = true ∧ (s.client.phase = .ready → t.client.phase = .ready) := by
  rcases client_of_step h with hsame | ⟨ce, fx, hstep⟩
  · rw [hsame] at ht ⊢
    exact ⟨ht, id⟩
  · exact ⟨Client.isOpen_of_step hstep ht, fun hs => Client.ready_of_step hs hstep ht⟩

/-! ### Invariants over a run -/

/-- The capabilities are negotiated once. -/
theorem negotiated_of_step (hw : Wired s) {e : LinkEvent} (h : s.step e = some t) :
    t.server.negotiated = s.server.negotiated := by
  cases e with
  | serve os o =>
      simp only [step] at h
      split at h
      · obtain ⟨v, writes, packets, hstep, -, rfl⟩ := serveStep_eq_some h
        obtain ⟨-, ⟨register, u, verdict, -, hreg, -, hend⟩ | ⟨unregister, -, rfl, -⟩ |
          ⟨-, -, hkept, -⟩⟩ := Server.step_incoming hstep
        · rcases hend with ⟨-, rfl⟩ | ⟨-, e, rfl⟩ <;> exact (Server.registerService_frame hreg).2.1
        · exact (s.server.unregisterService_frame _).2.1
        · exact hkept.negotiated
      · cases h
  | server e =>
      simp only [step] at h
      split_ifs at h with hown
      obtain ⟨v, writes, packets, hstep, -, rfl⟩ := serverStep_eq_some h
      exact (Server.step_own hown hw.queue hstep).1.negotiated
  | register service o now | unregister id o now =>
      obtain ⟨c, fx, packets, -, -, rfl⟩ := clientStep_eq_some h
      rfl
  | deliver o =>
      simp only [step] at h
      split at h
      · obtain ⟨c, fx, packets, -, -, rfl⟩ := clientStep_eq_some h
        rfl
      · cases h
  | client e =>
      simp only [step] at h
      split_ifs at h
      obtain ⟨c, fx, packets, -, -, rfl⟩ := clientStep_eq_some h
      rfl

/-- The link keeps its registration mode. -/
theorem correlated_of_step (hw : Wired s) {e : LinkEvent} (h : s.step e = some t)
    (hs : s.client.phase = .ready) (ht : t.client.phase = .ready) :
    t.client.correlated = s.client.correlated := by
  rw [(hw.client (by rw [hs]; rfl)).mode, ((hw.step h).client (by rw [ht]; rfl)).mode,
    negotiated_of_step hw h]

/-- What is known in each phase, with `P` for the select loop. -/
structure Phased (c : LinkConfig) (P : Link → Prop) (s : Link) : Prop where
  wired : Wired s
  negotiated : s.server.negotiated = c.negotiated
  exchange : ∀ todo sent, s.client.phase = .registering todo sent → Exchange s todo sent
  ready : s.client.phase = .ready → P s

theorem Phased.step {c : LinkConfig} {P : Link → Prop} (hp : Phased c P s)
    (hfresh : ∀ s, Wired s → s.server.negotiated = c.negotiated → Fresh s →
      s.client.phase = .ready → P s) {e : LinkEvent}
    (hstep : P s → s.client.phase = .ready → t.client.phase = .ready → P t)
    (h : s.step e = some t) : Phased c P t := by
  have hw := hp.wired.step h
  have hneg := (negotiated_of_step hp.wired h).trans hp.negotiated
  rcases hphase : s.client.phase with ⟨todo, sent⟩ | - | timedOut | result
  · have hx := (hp.exchange todo sent hphase).step hp.wired hphase h
    exact ⟨hw, hneg, hx.1, fun ht => hfresh t hw hneg (hx.2 ht) ht⟩
  · refine ⟨hw, hneg, fun todo sent ht => ?_, hstep (hp.ready hphase) hphase⟩
    have hready := (open_of_step h (by rw [ht]; rfl)).2 hphase
    rw [ht] at hready
    cases hready
  all_goals
    refine ⟨hw, hneg, fun todo sent ht => ?_, fun ht => ?_⟩
    all_goals
      have hopen := (open_of_step h (by rw [ht]; rfl)).1
      rw [hphase] at hopen
      cases hopen

theorem Phased.init {c : LinkConfig} {P : Link → Prop}
    (hfresh : ∀ s, Wired s → s.server.negotiated = c.negotiated → Fresh s →
      s.client.phase = .ready → P s) : Phased c P (init c) where
  wired := Wired.init c
  negotiated := rfl
  exchange := (exchanged_init c).1
  ready hp := hfresh _ (Wired.init c) rfl ((exchanged_init c).2 hp) hp

section
variable {c : LinkConfig} {P Q : Link → Prop} {C : Link → LinkEvent → Prop}
variable (hfresh : ∀ s, Wired s → s.server.negotiated = c.negotiated → Fresh s →
  s.client.phase = .ready → P s)
variable (hstep : ∀ s e t, Wired s → P s → C s e → s.step e = some t →
  s.client.phase = .ready → t.client.phase = .ready → P t)
include hfresh hstep

/-- **The rule for invariants of the select loop**: they hold of a fresh
Session and are kept by the steps of the loop. -/
theorem ready_inv {es : List LinkEvent} (hC : AllSteps step C (init c) es)
    (hrun : exec step (init c) es = some s) : Phased c P s := by
  refine exec_inv ?_ (Phased.init hfresh) hC hrun
  intro s e t hp hc h
  exact hp.step hfresh (fun hP hs ht => hstep s e t hp.wired hP hc h hs ht) h

/-- `P` in the select loop and `Q` everywhere. -/
structure Always (c : LinkConfig) (P Q : Link → Prop) (s : Link) : Prop where
  phased : Phased c P s
  always : Q s

/-- **The rule for what holds in every state**: it follows from what is known
in the initial exchange and in the select loop, and the end of the Session
keeps it. -/
theorem always_inv (hexchange : ∀ s todo sent, Exchange s todo sent → Q s)
    (hready : ∀ s, P s → Q s) (hclosing : ∀ s t, Q s → Closing s.view t.view → Q t)
    (hinit : Q (init c)) {es : List LinkEvent} (hC : AllSteps step C (init c) es)
    (hrun : exec step (init c) es = some s) : Always c P Q s := by
  refine exec_inv ?_ ⟨Phased.init hfresh, hinit⟩ hC hrun
  intro s e t hp hc h
  have ht := hp.phased.step hfresh
    (fun hP hs ht => hstep s e t hp.phased.wired hP hc h hs ht) h
  refine ⟨ht, ?_⟩
  rcases hphase : t.client.phase with ⟨todo, sent⟩ | - | timedOut | result
  · exact hexchange t todo sent (ht.exchange todo sent hphase)
  · exact hready t (ht.ready hphase)
  all_goals
    exact hclosing s t hp.always (closing_of_step hp.phased.wired h (by rw [hphase]; rfl))

end

end Link

end Eggtunnel
