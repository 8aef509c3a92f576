/-
Eggtunnel/Reconnect.lean

What the reconnect supervisor makes of a Session, and what it can be told by
one that never became ready.

The initial exchange reads one answer for each request and takes anything else
for a refusal, while the server may send an `Open` as soon as it has
acknowledged a Service, and a `Drain` at any time.  `discreet` says when such a
notice is harmless: it must not reach a client that still waits for an
acknowledgement.  Under it the exchange ends as the supervisor expects
(`initial_outcome`); without it a retryable situation becomes a terminal one.
-/
import Eggtunnel.Exchange

namespace Eggtunnel

/-! ### The supervisor -/

/-- Whether another attempt is made. -/
inductive SessionDisposition
  | terminal | retry
  deriving DecidableEq, Repr

/-- `ReconnectSupervisor::finish`. -/
def ReconnectSupervisor.finish (result : Except TunnelError Unit) (counters : Counters) :
    Counters × SessionDisposition :=
  let counters := { counters with connected := 0, services := 0, binds := [] }
  match result with
  | .error .authentication =>
      (counters.recordTermination TunnelError.authentication.terminationCategory, .terminal)
  | .error .authorization =>
      (counters.recordTermination TunnelError.authorization.terminationCategory, .terminal)
  | .error .resourceExhausted =>
      (counters.recordTermination TunnelError.resourceExhausted.terminationCategory, .terminal)
  | .error (.configuration text) =>
      (counters.recordTermination (TunnelError.configuration text).terminationCategory, .terminal)
  | .error e => (counters.recordTermination e.terminationCategory, .retry)
  | .ok () => (counters, .retry)

/-! ### The initial exchange -/

/-- The Session is in its initial exchange. -/
def Phase.isRegistering : Phase → Bool
  | .registering _ _ => true
  | _ => false

namespace Link

/-- The exchange has not ended yet. -/
def exchanging (s : Link) : Bool := s.client.phase.isRegistering

/-- The server accepts the registration it reads. -/
def grants (s : Link) : LinkEvent → Bool
  | .serve os _ =>
      match s.up with
      | ⟨.registerService register, _⟩ :: _ =>
          match (s.server.registerService register os).2 with
          | .accepted _ => true
          | .refused _ => false
      | _ => true
  | _ => true

/-- The server writes a notice only if the client reads no acknowledgement
after it: the last one is already on its way, or the exchange is over. -/
def discreet (s : Link) : LinkEvent → Bool
  | .server (.outbound .done) =>
      match s.client.phase with
      | .registering [_] true => s.down.any (·.about.isSome)
      | .registering _ _ => false
      | _ => true
  | _ => true

/-- How the exchange may end: ready with every desired Service active, or in a
way that the supervisor retries. -/
def Outcome (desired : List ClientService) (s : Link) : Prop :=
  (s.client.phase = .ready → ∀ service ∈ desired,
    s.client.services.active.lookup service.id = some service) ∧
  ∀ result, s.client.phase = .returned result →
    (ReconnectSupervisor.finish result s.client.counters).2 = .retry

variable {s t : Link} {todo : List ClientService} {sent : Bool}
variable {desired : List ClientService}

/-- The exchange with a server that grants everything and is discreet. -/
structure Orderly (desired : List ClientService) (s : Link) (todo : List ClientService)
    (sent : Bool) : Prop where
  exchange : Exchange s todo sent
  desired : s.client.services.desired = desired
  granted : ∀ p ∈ s.view.down, ∃ b, p.2 = .ok b
  notices : (∀ p ∈ s.down, p.about.isSome = true) ∨
    (todo.length = 1 ∧ sent = true ∧ ∃ packet down, s.down = packet :: down ∧
      packet.about.isSome = true)

/-- The head of the channel is an answer. -/
theorem Orderly.head (ho : Orderly desired s todo sent) {packet : Packet} {down : List Packet}
    (hdown : s.down = packet :: down) : packet.about.isSome = true := by
  rcases ho.notices with hall | ⟨-, -, packet', down', hdown', hsome⟩
  · exact hall packet (hdown ▸ List.mem_cons_self)
  · rw [hdown] at hdown'
    obtain ⟨rfl, rfl⟩ := List.cons.inj hdown'
    exact hsome

/-- New answers only add to an orderly channel. -/
theorem Orderly.notices_append (ho : Orderly desired s todo sent) {packets : List Packet}
    (hnew : ∀ p ∈ packets, p.about.isSome = true) :
    (∀ p ∈ s.down ++ packets, p.about.isSome = true) ∨
    (todo.length = 1 ∧ sent = true ∧ ∃ packet down, s.down ++ packets = packet :: down ∧
      packet.about.isSome = true) := by
  rcases ho.notices with hall | ⟨hone, hsent, packet, down, hdown, hsome⟩
  · refine .inl fun p hp => ?_
    rcases List.mem_append.mp hp with hp | hp
    · exact hall p hp
    · exact hnew p hp
  · exact .inr ⟨hone, hsent, packet, down ++ packets, by rw [hdown]; rfl, hsome⟩

/-- A new answer on its way was just decided. -/
theorem down_step {a b : LinkView} {correlated : Bool} {m : LinkMove}
    (h : Moves correlated m a b) :
    ∀ p ∈ b.down, p ∈ a.down ∨ (∃ bind, p.2 = .ok bind) ∨ ∃ r, m = .refuse r := by
  intro p hp
  cases h with
  | accept =>
      rcases List.mem_append.mp hp with hp | hp
      · exact .inl hp
      · rw [List.mem_singleton.mp hp]
        exact .inr (.inl ⟨_, rfl⟩)
  | refuse => exact .inr (.inr ⟨_, rfl⟩)
  | commit hdown | undo hdown | undoDead hdown | refused hdown | refusedDead hdown
  | refusedSlot hdown => exact .inl (hdown ▸ List.mem_cons_of_mem _ hp)
  | stutter | enter | forget | bury | leave | expire | remove | crash => exact .inl hp

/-- A server that grants everything keeps the exchange orderly. -/
theorem Orderly.serve (ho : Orderly desired s todo sent) (hw : Wired s) {os : BindOutcome}
    {o : WriteOutcome} (hgrants : s.grants (.serve os o) = true)
    (h : s.step (.serve os o) = some t) : Orderly desired t todo sent := by
  obtain ⟨m, hmove, hcause⟩ := refines_serve hw h
  refine ⟨ho.exchange.servers hw rfl h, ?_, ?_, ?_⟩
  · rw [(isServers_frame rfl h).1]
    exact ho.desired
  · intro p hp
    rcases down_step hmove p hp with hp | hok | ⟨r, rfl⟩
    · exact ho.granted p hp
    · exact hok
    · -- a refusal is not granted
      obtain ⟨os', o', v, code, he, hhead, hreg⟩ := hcause
      cases he
      obtain ⟨up, hup⟩ := List.head?_eq_some_iff.mp hhead
      simp [grants, hup, hreg] at hgrants
  · simp only [step] at h
    split at h
    · rename_i packet up hup
      obtain ⟨v, writes, packets, -, hcarry, rfl⟩ := serveStep_eq_some h
      obtain ⟨r, hr⟩ := ho.exchange.up packet (hup ▸ List.mem_cons_self)
      refine ho.notices_append fun p hp => ?_
      obtain ⟨msg, -, rfl⟩ := mem_carry hcarry p hp
      rw [hr]
      rfl
    · cases h

theorem discreet_outbound (hs : s.client.phase = .registering todo sent)
    (h : s.discreet (.server (.outbound .done)) = true) :
    todo.length = 1 ∧ sent = true ∧ s.down.any (·.about.isSome) = true := by
  unfold discreet at h
  rw [hs] at h
  rcases todo with - | ⟨service, - | ⟨next, rest⟩⟩
  · cases h
  · cases sent
    · cases h
    · exact ⟨rfl, rfl, h⟩
  · cases h

/-- A discreet server keeps the exchange orderly. -/
theorem Orderly.server (ho : Orderly desired s todo sent) (hw : Wired s)
    (hs : s.client.phase = .registering todo sent) {e : ServerEvent}
    (hdiscreet : s.discreet (.server e) = true) (h : s.step (.server e) = some t) :
    Orderly desired t todo sent := by
  have hx := ho.exchange.servers hw rfl h
  simp only [step] at h
  split_ifs at h with hown
  obtain ⟨v, writes, packets, hstep, hcarry, rfl⟩ := serverStep_eq_some h
  refine ⟨hx, ho.desired, ?_, ?_⟩
  · have hdown : ({ s with server := v, down := s.down ++ packets } : Link).view.down
        = s.view.down := by
      simp [view, answer_of_carry_none hcarry]
    rw [hdown]
    exact ho.granted
  · obtain ⟨-, rfl | ⟨m, o, rfl, rfl, -⟩⟩ := Server.step_own hown hw.queue hstep
    · obtain rfl := Option.some.inj hcarry
      exact ho.notices_append (by simp)
    · obtain ⟨rfl, rfl⟩ | ⟨-, rfl⟩ := carry_single hcarry
      · -- the notice is written behind the last acknowledgement
        obtain ⟨hone, hsent, hany⟩ := discreet_outbound hs hdiscreet
        obtain ⟨p, hp, -⟩ := List.any_eq_true.mp hany
        rcases hd : s.down with - | ⟨packet, down⟩
        · rw [hd] at hp
          cases hp
        · exact .inr ⟨hone, hsent, packet, _, rfl, ho.head hd⟩
      · exact ho.notices_append (by simp)

/-! ### The client's side -/

/-- What is known until the exchange is over, and when it is. -/
structure Promising (desired : List ClientService) (s : Link) : Prop where
  wired : Wired s
  orderly : ∀ todo sent, s.client.phase = .registering todo sent → Orderly desired s todo sent
  outcome : Outcome desired s

/-- An error that the supervisor retries. -/
theorem promising_of_retry (hw : Wired t) {e : TunnelError}
    (hphase : t.client.phase = .returned (.error e))
    (hretry : ∀ counters, (ReconnectSupervisor.finish (.error e) counters).2 = .retry) :
    Promising desired t := by
  refine ⟨hw, fun todo sent hp => ?_, fun hp => ?_, fun result hp => ?_⟩
  · rw [hphase] at hp
    cases hp
  · rw [hphase] at hp
    cases hp
  · rw [hphase] at hp
    cases hp
    exact hretry _

theorem promising_of_registering (hw : Wired t) (hphase : t.client.phase = .registering todo sent)
    (ho : Orderly desired t todo sent) : Promising desired t := by
  refine ⟨hw, fun todo' sent' hp => ?_, fun hp => ?_, fun result hp => ?_⟩
  · rw [hphase] at hp
    cases hp
    exact ho
  · rw [hphase] at hp
    cases hp
  · rw [hphase] at hp
    cases hp

/-- Read and write errors are retried. -/
theorem finish_ioError (kind : IoErrorKind) (counters : Counters) :
    (ReconnectSupervisor.finish (.error (ioError kind)) counters).2 = .retry := by
  cases kind <;> rfl

theorem finish_readError (err : ReadError) (counters : Counters) :
    (ReconnectSupervisor.finish (.error err.toTunnelError) counters).2 = .retry := by
  cases err with
  | io kind => exact finish_ioError kind counters
  | protocol e => rfl
  | timeout => rfl

theorem finish_writeError {msg : Message} {o : WriteOutcome} {e : TunnelError}
    (h : handshakeWrite msg o = .error e) (counters : Counters) :
    (ReconnectSupervisor.finish (.error e) counters).2 = .retry := by
  unfold handshakeWrite at h
  cases o with
  | done => simp at h
  | failed accepted kind =>
      rw [writeBudgeted_failed] at h
      cases h
      exact finish_ioError kind counters
  | cut accepted =>
      rw [writeBudgeted_cut] at h
      cases h
      rfl

theorem Orderly.client (ho : Orderly desired s todo sent) (hw : Wired t)
    (hs : s.client.phase = .registering todo sent) {e : ClientEvent}
    (h : s.step (.client e) = some t) : Promising desired t := by
  have hx := ho.exchange.client hs h
  simp only [step] at h
  split_ifs at h with hown
  obtain ⟨c, fx, packets, hstep, hcarry, rfl⟩ := clientStep_eq_some h
  rcases Client.step_registering hs hstep with ⟨-, hkept, hphase, -, rfl⟩ |
    ⟨service, rest, o, rfl, rfl, rfl, hnext⟩ | ⟨_, _, _, _, rfl, -⟩ | ⟨err, rfl, hphase, -⟩
  · refine promising_of_registering hw (hphase.trans hs) ⟨hx.1 _ _ (hphase.trans hs), ?_,
      ho.granted, ho.notices⟩
    dsimp only
    rw [hkept.services]
    exact ho.desired
  · unfold Client.registerNext at hnext
    dsimp only at hnext
    split at hnext
    · obtain ⟨rfl, rfl⟩ := Prod.mk.inj hnext
      refine promising_of_registering hw rfl ⟨hx.1 _ _ rfl, ho.desired, ho.granted, ?_⟩
      exact .inl (ho.notices.resolve_right fun hlate => by cases hlate.2.1)
    · rename_i e hwrite
      obtain ⟨rfl, rfl⟩ := Prod.mk.inj hnext
      exact promising_of_retry hw rfl (finish_writeError hwrite)
  · cases hown
  · exact promising_of_retry hw (congrArg Client.phase hphase) (finish_readError err)

theorem Orderly.deliver (ho : Orderly desired s todo sent) (hws : Wired s) (hw : Wired t)
    (hs : s.client.phase = .registering todo sent) {o : WriteOutcome}
    (h : s.step (.deliver o) = some t) : Promising desired t := by
  have hx := ho.exchange.deliver hws hs h
  obtain ⟨service, rest, rfl, rfl⟩ := registering_of_deliver hs h
  obtain ⟨packet, down, hdown, hteq, hor⟩ := deliver_registering hws hs ho.exchange h
  have hsome := ho.head hdown
  obtain ⟨v, hpacket⟩ := hor.resolve_right fun hnone => by simp [hnone.1] at hsome
  obtain ⟨b, hmsg⟩ : ∃ b, packet.msg = .registerAck ⟨service.id, b⟩ := by
    cases v with
    | accepted b => exact ⟨b, by rw [hpacket]; rfl⟩
    | refused code =>
        -- a refusal on its way was not granted
        obtain ⟨b, hb⟩ := ho.granted _ (view_down hdown hpacket ▸ List.mem_cons_self)
        unfold Server.response at hb
        dsimp only at hb
        split_ifs at hb <;> cases hb
  rw [hmsg, initialResponse_accepted] at hteq
  cases rest with
  | nil =>
      have hready : t.client.phase = .ready := by
        rw [hteq]
        rfl
      have hdesired : t.client.services.desired = desired := by
        rw [hteq]
        exact ho.desired
      refine ⟨hw, fun todo sent hp => ?_, fun _ => ?_, fun result hp => ?_⟩
      · rw [hready] at hp
        cases hp
      · rw [← hdesired]
        exact (hx.2 hready).active
      · rw [hready] at hp
        cases hp
  | cons next rest =>
      have hphase : t.client.phase = .registering (next :: rest) false := by
        rw [hteq]
        rfl
      refine promising_of_registering hw hphase ⟨hx.1 _ _ hphase, ?_, ?_, ?_⟩
      · rw [hteq]
        exact ho.desired
      · rw [hteq]
        intro p hp
        refine ho.granted p ?_
        rw [view_down hdown hpacket]
        exact List.mem_cons_of_mem _ hp
      · refine .inl fun p hp => ?_
        rw [hteq] at hp
        rcases ho.notices with hall | ⟨hone, -⟩
        · exact hall p (hdown ▸ List.mem_cons_of_mem _ hp)
        · simp at hone

/-- **A step of the exchange with a discreet server that grants
everything.** -/
theorem Promising.step (hp : Promising desired s) {e : LinkEvent}
    (hexchanging : s.exchanging = true) (hgrants : s.grants e = true)
    (hdiscreet : s.discreet e = true) (h : s.step e = some t) : Promising desired t := by
  have hw := hp.wired.step h
  obtain ⟨todo, sent, hs⟩ : ∃ todo sent, s.client.phase = .registering todo sent := by
    unfold exchanging Phase.isRegistering at hexchanging
    split at hexchanging
    · exact ⟨_, _, by assumption⟩
    · cases hexchanging
  have ho := hp.orderly todo sent hs
  cases e with
  | register service o now | unregister id o now =>
      obtain ⟨c, fx, packets, hstep, -, -⟩ := clientStep_eq_some h
      simp only [Client.step, hs, reduceCtorEq] at hstep
  | deliver o => exact ho.deliver hp.wired hw hs h
  | client e => exact ho.client hw hs h
  | serve os o =>
      refine promising_of_registering hw ?_ (ho.serve hp.wired hgrants h)
      rw [(isServers_frame rfl h).1]
      exact hs
  | server e =>
      refine promising_of_registering hw ?_ (ho.server hp.wired hs hdiscreet h)
      rw [(isServers_frame rfl h).1]
      exact hs

theorem promising_init (c : LinkConfig)
    (hbegun : c.clientCounters.sessionGeneration + 1 < 2 ^ 64) : Promising c.desired (init c) := by
  have hx := exchanged_init c
  rcases Client.start_cases c.clientPolicy c.sessionId
    (c.negotiated.has capabilityRegisterReject) (.new c.desired) c.clientCounters [] with
    ⟨hspent, -⟩ | ⟨pre, hpre, -, -, hdesired, -⟩
  · exact absurd hbegun hspent
  · have hclient : (init c).client = pre.continueRegistering c.desired := congrArg Prod.fst hpre
    have hsame : (init c).client.services.desired = c.desired := by
      rw [hclient]
      refine Eq.trans ?_ hdesired
      unfold Client.continueRegistering
      split <;> rfl
    refine ⟨Wired.init c, fun todo sent hp => ⟨hx.1 todo sent hp, hsame, ?_, ?_⟩, fun hp => ?_, ?_⟩
    · simp [init, view]
    · simp [init]
    · rw [← hsame]
      exact (hx.2 hp).active
    · intro result hp
      rw [hclient] at hp
      unfold Client.continueRegistering at hp
      split at hp <;> cases hp

/-- **Initial registration with a discreet server.**  As long as the server
accepts every registration and sends no notice to a client that still waits for
an acknowledgement, the exchange ends ready, with every desired Service active,
or in a way that the supervisor retries. -/
theorem initial_outcome (c : LinkConfig)
    (hbegun : c.clientCounters.sessionGeneration + 1 < 2 ^ 64) (es : List LinkEvent)
    (hsteps : AllSteps step
      (fun s e => s.exchanging = true ∧ s.grants e = true ∧ s.discreet e = true) (init c) es)
    (hrun : exec step (init c) es = some s) : Outcome c.desired s := by
  have hp : Promising c.desired s := by
    refine exec_inv ?_ (promising_init c hbegun) hsteps hrun
    rintro s e t hp ⟨hexchanging, hgrants, hdiscreet⟩ h
    exact hp.step hexchanging hgrants hdiscreet h
  exact hp.outcome

/-- Two Services, one after the other, and an `Open` behind the last
acknowledgement. -/
def twoServices : List LinkEvent :=
  [.client (.registerNext .done), .serve (boundAt 1000) .done, .deliver .done,
    .client (.registerNext .done), .serve (boundAt 1001) .done,
    .server (.opened webService.id ⟨Vector.replicate 16 0⟩), .server (.outbound .done),
    .deliver .done]

theorem initial_outcome_two_services : ∃ s,
    exec step (init (smallLink legacyPeer [webService, mailService])) twoServices = some s ∧
    Outcome [webService, mailService] s :=
  ⟨_, rfl, initial_outcome (smallLink legacyPeer [webService, mailService]) (by decide)
    twoServices (by decide +kernel) rfl⟩

/-- **An `Open` between two acknowledgements ends the client for good**: the
server has acknowledged the first Service and accepts the second, an external
connection reaches the first, and the client takes the `Open` for a refusal. -/
theorem initial_open_is_terminal :
    ¬ ∀ (c : LinkConfig) (es : List LinkEvent) (s : Link),
      c.clientCounters.sessionGeneration + 1 < 2 ^ 64 →
      AllSteps step (fun s e => s.exchanging = true ∧ s.grants e = true) (init c) es →
      exec step (init c) es = some s → Outcome c.desired s := by
  intro h
  have houtcome := h (smallLink legacyPeer [webService, mailService])
    [.client (.registerNext .done), .serve (boundAt 1000) .done, .deliver .done,
      .client (.registerNext .done),
      .server (.opened webService.id ⟨Vector.replicate 16 0⟩), .server (.outbound .done),
      .serve (boundAt 1001) .done, .deliver .done] _ (by decide) (by decide +kernel) rfl
  have hretry := houtcome.2 (.error .authorization) rfl
  cases hretry

end Link

end Eggtunnel
