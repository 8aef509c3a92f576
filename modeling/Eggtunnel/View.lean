/-
Eggtunnel/View.lean

A link seen as an enrolment, and what every frame on the link looks like.

`view` forgets everything about a link but the transactions, the tombstones and
the Services of the client, the table of the server, and the requests and
answers on their way.  `Wired` is what holds of the frames themselves: only a
`RegisterService` makes a request, only an answer to one carries it back, and
the two control queues hold nothing that either side could take for an answer.
-/
import Eggtunnel.Link

namespace Eggtunnel

/-! ### The view -/

/-- What the client makes of an answer. -/
def Message.result : Message → Except TunnelError EffectiveBind
  | .registerAck ack => .ok ack.effectiveBind
  | .registerReject reject => .error (Client.registrationErrorCode reject.code)
  | .error e => .error (Client.registrationErrorCode e.code)
  | _ => .error .disconnected

/-- The enrolment of Services by their ids. -/
abbrev LinkView :=
  Enrol.Enrolment ServiceId RegisterService (Option CallerId) EffectiveBind TunnelError ServiceName

/-- A move of that enrolment. -/
abbrev LinkMove := Enrol.Move ServiceId RegisterService (Option CallerId)

namespace Packet

/-- The command a frame on its way up carries, if any. -/
def command (p : Packet) : Option (Enrol.Command ServiceId RegisterService (Option CallerId)) :=
  match p.msg with
  | .registerService _ => p.about.map .enter
  | .unregisterService unregister => some (.leave unregister.serviceId)
  | _ => none

/-- The answer a frame on its way down carries, if any. -/
def answer (p : Packet) : Option (Request × Except TunnelError EffectiveBind) :=
  p.about.map (·, p.msg.result)

end Packet

/-- What a caller was told because a response arrived. -/
def told : Source × Answer → Option (Option CallerId × Except TunnelError EffectiveBind)
  | (.response, caller, result) => some (some caller, result)
  | (.loop, _) => none

/-- The addresses the client has on record for a Service. -/
def Client.bindsOf (s : Client) (id : ServiceId) : List EffectiveBind :=
  (s.counters.binds.filter (·.service = id)).map (·.bind)

namespace Link

/-- What the link says about registrations. -/
def view (s : Link) : LinkView where
  live := s.client.services.live
  dead := s.client.services.dead
  active := s.client.services.enrolled
  noted := s.client.bindsOf
  up := s.up.filterMap Packet.command
  down := s.down.filterMap Packet.answer
  table := s.server.services.lookup
  bound := s.server.bindsOf
  verdicts := s.verdicts.map fun v => (v.1, v.2.result)
  told := s.answers.filterMap told

/-- The steps of an enrolment that the link takes. -/
abbrev Moves (correlated : Bool) (m : LinkMove) (a b : LinkView) : Prop :=
  Enrol.Step (·.serviceId) (·.name) (correlated = false) m a b

end Link

/-! ### Frames -/

namespace Packet

/-- A frame on its way up: a registration with its request, or anything else
without one. -/
def Up (p : Packet) : Prop :=
  (∃ r : Request, p = ⟨.registerService r.item, some r⟩) ∨
  (p.about = none ∧ ∀ register, p.msg ≠ .registerService register)

/-- A frame on its way down: the answer to a request, or a notice, or a
`Pong`. -/
def Down (negotiated : Capabilities) (p : Packet) : Prop :=
  (∃ (r : Request) (v : Verdict),
    p = ⟨Server.response negotiated r.item.serviceId v, some r⟩) ∨
  (p.about = none ∧ (p.msg.isNotice = true ∨ ∃ pong, p.msg = .pong pong))

end Packet

namespace Link

variable {about : Message → Option Request} {m : Message} {o : WriteOutcome}
variable {packets : List Packet}

@[simp] theorem carry_nil : carry about [] = some [] := rfl

/-- **What one write adds**: its frame if it completed, nothing otherwise. -/
theorem carry_single (h : carry about [(m, o)] = some packets) :
    (o = .done ∧ packets = [⟨m, about m⟩]) ∨ (o ≠ .done ∧ packets = []) := by
  unfold carry at h
  split at h
  · exact .inl ⟨rfl, (Option.some.inj h).symm⟩
  · exact .inr ⟨by simp, (Option.some.inj h).symm⟩
  · exact .inr ⟨by simp, (Option.some.inj h).symm⟩
  · cases h

theorem carry_done (h : carry about [(m, .done)] = some packets) : packets = [⟨m, about m⟩] := by
  simpa [carry] using h.symm

theorem mem_carry {writes : List Write} (h : carry about writes = some packets) :
    ∀ p ∈ packets, ∃ m, (m, .done) ∈ writes ∧ p = ⟨m, about m⟩ := by
  induction writes generalizing packets with
  | nil =>
      obtain rfl := Option.some.inj h
      simp
  | cons w writes ih =>
      obtain ⟨m, o⟩ := w
      intro p hp
      have hrest {packets} (h : carry about writes = some packets) (hp : p ∈ packets) :
          ∃ m', (m', .done) ∈ (m, o) :: writes ∧ p = ⟨m', about m'⟩ := by
        obtain ⟨m', hmem, rfl⟩ := ih h p hp
        exact ⟨m', List.mem_cons_of_mem _ hmem, rfl⟩
      unfold carry at h
      split at h
      · obtain ⟨rest, hc, rfl⟩ := Option.map_eq_some_iff.mp h
        rcases List.mem_cons.mp hp with rfl | hp
        · exact ⟨m, List.mem_cons_self, rfl⟩
        · exact hrest hc hp
      · exact hrest h hp
      · exact hrest h hp
      · cases h

variable {s t : Link}

theorem clientStep_eq_some {e : ClientEvent} {caller : Option CallerId} {source : Source}
    (h : s.clientStep e caller source = some t) :
    ∃ c fx packets, s.client.step e = some (c, fx) ∧
      carry (asking caller) fx.writes = some packets ∧
      t = { s with
        client := c
        up := s.up ++ packets
        answers := s.answers ++ fx.answers.map (source, ·) } := by
  obtain ⟨⟨c, fx⟩, hstep, h⟩ := Option.bind_eq_some_iff.mp h
  obtain ⟨packets, hcarry, rfl⟩ := Option.map_eq_some_iff.mp h
  exact ⟨c, fx, packets, hstep, hcarry, rfl⟩

theorem serverStep_eq_some {e : ServerEvent} (h : s.serverStep e = some t) :
    ∃ v writes packets, s.server.step e = some (v, writes) ∧
      carry (fun _ => none) writes = some packets ∧
      t = { s with server := v, down := s.down ++ packets } := by
  obtain ⟨⟨v, writes⟩, hstep, h⟩ := Option.bind_eq_some_iff.mp h
  obtain ⟨packets, hcarry, rfl⟩ := Option.map_eq_some_iff.mp h
  exact ⟨v, writes, packets, hstep, hcarry, rfl⟩

theorem serveStep_eq_some {packet : Packet} {up : List Packet} {os : BindOutcome}
    (h : s.serveStep packet up os o = some t) :
    ∃ v writes packets, s.server.step (.incoming packet.msg os o) = some (v, writes) ∧
      carry (fun _ => packet.about) writes = some packets ∧
      t = { s with
        server := v
        up := if packet.about.isSome && packets.isEmpty then s.up else up
        down := s.down ++ packets
        verdicts := s.verdicts ++ packets.filterMap fun p => p.about.map (·, p.msg) } := by
  obtain ⟨⟨v, writes⟩, hstep, h⟩ := Option.bind_eq_some_iff.mp h
  obtain ⟨packets, hcarry, rfl⟩ := Option.map_eq_some_iff.mp h
  exact ⟨v, writes, packets, hstep, hcarry, rfl⟩

/-! ### Wiring -/

/-- What holds of the frames and of the two sides in every state of a link. -/
structure Wired (s : Link) : Prop where
  up : ∀ p ∈ s.up, p.Up
  down : ∀ p ∈ s.down, p.Down s.server.negotiated
  queue : ∀ m ∈ s.server.queue, m.isNotice = true
  client : s.client.phase.isOpen = true →
    s.client.Sound (s.server.negotiated.has capabilityRegisterReject)

theorem Wired.init (c : LinkConfig) : Wired (init c) where
  up := by simp [Link.init]
  down := by simp [Link.init]
  queue := by simp [Link.init]
  client ht := Client.Sound.start _ _ _ _ _ _ ht

/-- Every frame the client writes goes up as it should. -/
theorem up_of_carry {caller : Option CallerId} {writes : List Write}
    (h : carry (asking caller) writes = some packets) : ∀ p ∈ packets, p.Up := by
  intro p hp
  obtain ⟨m, -, rfl⟩ := mem_carry h p hp
  cases m with
  | registerService register => exact .inl ⟨⟨register, caller⟩, rfl⟩
  | _ => exact .inr ⟨rfl, by simp⟩

theorem Wired.clientStep (hw : Wired s) {e : ClientEvent} {caller : Option CallerId}
    {source : Source} (h : s.clientStep e caller source = some t) : Wired t := by
  obtain ⟨c, fx, packets, hstep, hcarry, rfl⟩ := clientStep_eq_some h
  refine ⟨?_, hw.down, hw.queue, fun ht => Client.Sound.step hw.client hstep ht⟩
  intro p hp
  rcases List.mem_append.mp hp with hp | hp
  · exact hw.up p hp
  · exact up_of_carry hcarry p hp

theorem Wired.serverStep (hw : Wired s) {e : ServerEvent} (hown : e.isOwn = true)
    (h : s.serverStep e = some t) : Wired t := by
  obtain ⟨v, writes, packets, hstep, hcarry, rfl⟩ := serverStep_eq_some h
  obtain ⟨hkept, hwrites⟩ := Server.step_own hown hw.queue hstep
  refine ⟨hw.up, ?_, fun m hm => (hkept.queue m hm).elim (hw.queue m) id, ?_⟩
  · dsimp only
    rw [hkept.negotiated]
    intro p hp
    rcases List.mem_append.mp hp with hp | hp
    · exact hw.down p hp
    · obtain ⟨m, hmem, rfl⟩ := mem_carry hcarry p hp
      rcases hwrites with rfl | ⟨m', o', -, rfl, hnotice⟩
      · cases hmem
      · obtain ⟨rfl, rfl⟩ := Prod.mk.inj (List.mem_singleton.mp hmem)
        exact .inr ⟨rfl, .inl hnotice⟩
  · dsimp only
    rw [hkept.negotiated]
    exact hw.client

/-- The server's answer to a frame that went up as it should. -/
theorem Wired.serveStep (hw : Wired s) {packet : Packet} {up : List Packet} {os : BindOutcome}
    (hup : s.up = packet :: up) (h : s.serveStep packet up os o = some t) : Wired t := by
  obtain ⟨v, writes, packets, hstep, hcarry, rfl⟩ := serveStep_eq_some h
  have hpacket : packet.Up := hw.up packet (hup ▸ List.mem_cons_self)
  have hrest : ∀ p ∈ (if packet.about.isSome && packets.isEmpty then s.up else up), p.Up := by
    intro p hp
    split_ifs at hp
    · exact hw.up p hp
    · exact hw.up p (hup ▸ List.mem_cons_of_mem _ hp)
  -- once the server is known to keep its side, the frames it wrote are left
  have hwired (hneg : v.negotiated = s.server.negotiated)
      (hqueue : ∀ m ∈ v.queue, m ∈ s.server.queue ∨ m.isNotice = true)
      (hnew : ∀ m o, (m, o) ∈ writes → Packet.Down s.server.negotiated ⟨m, packet.about⟩) :
      Wired { s with
        server := v
        up := if packet.about.isSome && packets.isEmpty then s.up else up
        down := s.down ++ packets
        verdicts := s.verdicts ++ packets.filterMap fun p => p.about.map (·, p.msg) } := by
    refine ⟨hrest, ?_, fun m hm => (hqueue m hm).elim (hw.queue m) id, ?_⟩
    · dsimp only
      rw [hneg]
      intro p hp
      rcases List.mem_append.mp hp with hp | hp
      · exact hw.down p hp
      · obtain ⟨m, hmem, rfl⟩ := mem_carry hcarry p hp
        exact hnew m .done hmem
    · dsimp only
      rw [hneg]
      exact hw.client
  obtain ⟨-, ⟨register, u, verdict, hm, hreg, rfl, hend⟩ | ⟨unregister, hm, rfl, rfl⟩ |
    ⟨hm, -, hkept, hwrites⟩⟩ := Server.step_incoming hstep
  · obtain ⟨-, hneg, hqueue, -⟩ := Server.registerService_frame hreg
    have hv : v.negotiated = u.negotiated ∧ v.queue = u.queue := by
      rcases hend with ⟨-, rfl⟩ | ⟨-, e, rfl⟩ <;> exact ⟨rfl, rfl⟩
    apply hwired (hv.1.trans hneg)
    · intro m hmem
      rw [hv.2, hqueue] at hmem
      exact .inl hmem
    · intro m o' hmem
      obtain ⟨rfl, rfl⟩ := Prod.mk.inj (List.mem_singleton.mp hmem)
      rcases hpacket with ⟨r, rfl⟩ | ⟨-, hne⟩
      · cases hm
        exact .inl ⟨r, verdict, rfl⟩
      · exact absurd hm (hne register)
  · obtain ⟨-, hneg, hqueue, -⟩ := s.server.unregisterService_frame unregister.serviceId
    apply hwired hneg
    · intro m hmem
      exact .inl (hqueue ▸ hmem)
    · intro m o' hmem
      cases hmem
  · apply hwired hkept.negotiated hkept.queue
    intro m o' hmem
    rcases hwrites with rfl | ⟨pong, rfl⟩
    · cases hmem
    · obtain ⟨rfl, rfl⟩ := Prod.mk.inj (List.mem_singleton.mp hmem)
      rcases hpacket with ⟨r, rfl⟩ | ⟨hnone, -⟩
      · exact absurd rfl (hm r.item)
      · exact .inr ⟨hnone, .inr ⟨pong, rfl⟩⟩

/-- **Every link is wired in every state it reaches.** -/
theorem Wired.step (hw : Wired s) {e : LinkEvent} (h : s.step e = some t) : Wired t := by
  cases e with
  | register service o now =>
      exact Wired.clientStep (s := { s with
        nextCaller := s.nextCaller + 1
        requested := s.requested ++ [(s.nextCaller, service)] })
        ⟨hw.up, hw.down, hw.queue, hw.client⟩ h
  | unregister id o now =>
      exact Wired.clientStep (s := { s with nextCaller := s.nextCaller + 1 })
        ⟨hw.up, hw.down, hw.queue, hw.client⟩ h
  | deliver o =>
      simp only [Link.step] at h
      split at h
      · rename_i packet down hdown
        refine Wired.clientStep (s := { s with down := down }) ⟨hw.up, ?_, hw.queue, hw.client⟩ h
        intro p hp
        exact hw.down p (hdown ▸ List.mem_cons_of_mem _ hp)
      · cases h
  | serve os o =>
      simp only [Link.step] at h
      split at h
      · exact hw.serveStep (by assumption) h
      · cases h
  | client e =>
      simp only [Link.step] at h
      split_ifs at h
      exact hw.clientStep h
  | server e =>
      simp only [Link.step] at h
      split_ifs at h with hown
      exact hw.serverStep hown h

end Link

end Eggtunnel
