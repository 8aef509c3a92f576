/-
Eggtunnel/Stream.lean

What client and server put on the control stream.

A write that its budget cuts short leaves a prefix of a frame behind, so
nothing may be written after it.  The server keeps to that: every write that
does not complete ends its loop.  The client does at most of its writes, but
goes on after three: the cleanup for a registration nobody waits for, the
request of a correlated registration that timed out, and the `Unregister` of a
Service that is not active.
-/
import Eggtunnel.Session
import Eggtunnel.Operations
import Eggtunnel.Server

namespace Eggtunnel

/-! ### The client's writes -/

namespace Client

variable {s t : Client} {fx : Effects}

/-- How the write ends that this event may lead to, if the client goes on
whatever that is. -/
def bestEffort (s : Client) : ClientEvent → Option WriteOutcome
  | .incoming (.registerAck _) o => some o
  | .command (.register _ _) (.cut accepted) _ =>
      match s.services.mode with
      | .legacySerial => none
      | .correlatedBounded _ => some (.cut accepted)
  | .command (.unregister id _) o _ =>
      if (s.services.active.lookup id).isNone then some o else none
  | _ => none

/-- At most one write, and if that does not complete the client stops, the
best-effort writes apart. -/
def Stops (s : Client) (e : ClientEvent) (t : Client) (fx : Effects) : Prop :=
  fx.writes = [] ∨ ∃ m o, fx.writes = [(m, o)] ∧
    (o = .done ∨ t.phase.isOpen = false ∨ s.bestEffort e = some o)

theorem writes_onIncoming {m : Message} {o : WriteOutcome} (h : s.onIncoming m o = (t, fx)) :
    Stops s (.incoming m o) t fx := by
  have hquiet {u : Client} (heq : (u, {}) = (t, fx)) : Stops s (.incoming m o) t fx := by
    obtain ⟨-, rfl⟩ := Prod.mk.inj heq
    exact .inl rfl
  unfold onIncoming at h
  split at h
  · exact hquiet h
  · exact hquiet h
  · exact hquiet h
  · unfold onRegisterAck at h
    split at h
    · exact hquiet h
    · obtain ⟨-, rfl⟩ := Prod.mk.inj h
      exact .inl rfl
    · obtain ⟨-, rfl⟩ := Prod.mk.inj h
      exact .inr ⟨_, o, rfl, .inr (.inr rfl)⟩
    · obtain ⟨-, rfl⟩ := Prod.mk.inj h
      exact .inl rfl
  · unfold onError at h
    split at h
    · obtain ⟨-, rfl⟩ := Prod.mk.inj h
      exact .inl rfl
    · exact hquiet h
  · unfold onRegisterReject at h
    split_ifs at h
    · split at h
      · obtain ⟨-, rfl⟩ := Prod.mk.inj h
        exact .inl rfl
      · obtain ⟨-, rfl⟩ := Prod.mk.inj h
        exact .inl rfl
      · exact hquiet h
    · exact hquiet h
  · exact hquiet h
  · exact hquiet h

/-- `unregister` reports whether the Service was active. -/
theorem active_of_unregister {services : ServiceState} {id : ServiceId} {answers : List Answer}
    {present : Bool} (h : s.services.unregister id = (services, answers, present)) :
    (s.services.active.lookup id).isSome = present := by
  have hpending : (s.services.cancelPending id).1.active = s.services.active := by
    unfold ServiceState.cancelPending
    split
    · split_ifs <;> rfl
    · rfl
  have hinFlight (u : ServiceState) : (u.cancelInFlight id).1.active = u.active := by
    unfold ServiceState.cancelInFlight
    split <;> rfl
  have hpresent := congrArg (·.2.2) h
  unfold ServiceState.unregister at hpresent
  dsimp only at hpresent
  rwa [hinFlight, hpending] at hpresent

theorem writes_onRegister {service : ClientService} {reply : CallerId} {o : WriteOutcome}
    {now : Instant} (h : s.onRegister service reply o now = (t, fx)) :
    Stops s (.command (.register service reply) o now) t fx := by
  unfold onRegister at h
  split_ifs at h
  · obtain ⟨-, rfl⟩ := Prod.mk.inj h
    exact .inl rfl
  · obtain ⟨-, rfl⟩ := Prod.mk.inj h
    exact .inl rfl
  split at h
  · obtain ⟨-, rfl⟩ := Prod.mk.inj h
    exact .inl rfl
  · rename_i services hbegin
    unfold writeRegistration at h
    dsimp only at h
    cases o with
    | done =>
        rw [writeBudgeted_done] at h
        obtain ⟨-, rfl⟩ := Prod.mk.inj h
        exact .inr ⟨_, .done, rfl, .inl rfl⟩
    | failed accepted kind =>
        rw [writeBudgeted_failed] at h
        cases kind <;> simp only [ioError] at h <;> obtain ⟨rfl, rfl⟩ := Prod.mk.inj h <;>
          exact .inr ⟨_, _, rfl, .inr (.inl rfl)⟩
    | cut accepted =>
        rw [writeBudgeted_cut] at h
        dsimp only at h
        split at h
        · obtain ⟨rfl, rfl⟩ := Prod.mk.inj h
          exact .inr ⟨_, _, rfl, .inr (.inl rfl)⟩
        · rename_i n hmode
          rw [ServiceState.mode_begin hbegin] at hmode
          obtain ⟨-, rfl⟩ := Prod.mk.inj h
          exact .inr ⟨_, _, rfl, .inr (.inr (by simp [bestEffort, hmode]))⟩

theorem writes_onUnregister {id : ServiceId} {reply : CallerId} {o : WriteOutcome}
    {now : Instant} (h : s.onUnregister id reply o = (t, fx)) :
    Stops s (.command (.unregister id reply) o now) t fx := by
  rcases hu : s.services.unregister id with ⟨services, answers, present⟩
  have hpresent := active_of_unregister hu
  unfold onUnregister at h
  dsimp only at h
  rw [hu] at h
  cases present with
  | true =>
      dsimp only at h
      split at h
      · rename_i hok
        obtain ⟨-, rfl⟩ := Prod.mk.inj h
        exact .inr ⟨_, o, rfl, .inl (writeBudgeted_eq_ok hok)⟩
      · obtain ⟨rfl, rfl⟩ := Prod.mk.inj h
        exact .inr ⟨_, o, rfl, .inr (.inl rfl)⟩
  | false =>
      obtain ⟨-, rfl⟩ := Prod.mk.inj h
      have hnone : (s.services.active.lookup id).isNone = true := by simpa using hpresent
      exact .inr ⟨_, o, rfl, .inr (.inr (if_pos hnone))⟩

theorem writes_onOutbound {m : Message} {rest : List Message} {o : WriteOutcome}
    (h : s.onOutbound m rest o = (t, fx)) : Stops s (.outbound o) t fx := by
  unfold onOutbound at h
  dsimp only at h
  split at h
  · rename_i hok
    obtain ⟨-, rfl⟩ := Prod.mk.inj h
    exact .inr ⟨_, o, rfl, .inl (writeBudgeted_eq_ok hok)⟩
  · obtain ⟨rfl, rfl⟩ := Prod.mk.inj h
    exact .inr ⟨_, o, rfl, .inr (.inl rfl)⟩

theorem writes_registerNext {service : ClientService} {todo : List ClientService}
    {o : WriteOutcome} (h : s.registerNext service todo o = (t, fx)) :
    Stops s (.registerNext o) t fx := by
  unfold registerNext at h
  dsimp only at h
  split at h
  · rename_i hok
    obtain ⟨-, rfl⟩ := Prod.mk.inj h
    exact .inr ⟨_, o, rfl, .inl (writeBudgeted_eq_ok hok)⟩
  · obtain ⟨rfl, rfl⟩ := Prod.mk.inj h
    exact .inr ⟨_, o, rfl, .inr (.inl rfl)⟩

/-- **One step of the client writes at most one frame**, while it is open. -/
theorem step_writes {e : ClientEvent} (h : s.step e = some (t, fx)) :
    Stops s e t fx ∧ (s.phase.isOpen = false → fx.writes = []) := by
  refine ⟨?_, fun hs => (step_closed hs h).2.2.1⟩
  cases did_of_step h with
  | registerNext _ heq => exact writes_registerNext heq
  | incoming _ heq => exact writes_onIncoming heq
  | register _ heq => exact writes_onRegister heq
  | unregister _ heq => exact writes_onUnregister heq
  | outbound _ _ heq => exact writes_onOutbound heq
  | cancelled _ heq =>
      obtain ⟨rfl, rfl⟩ := Prod.mk.inj heq
      exact .inr ⟨_, _, rfl, .inr (.inl rfl)⟩
  | registrationDeadline _ heq =>
      unfold onDeadline at heq
      split at heq <;> obtain ⟨-, rfl⟩ := Prod.mk.inj heq <;> exact .inl rfl
  | tornDown hphase => exact .inl (step_closed (by rw [hphase]; rfl) h).2.2.1
  | _ => exact .inl rfl

end Client

/-! ### The server's writes -/

/-- A server Session with all it has written. -/
structure ServerRun where
  server : Server
  written : List Write

namespace ServerRun

/-- Nothing is written yet. -/
def start (server : Server) : ServerRun := ⟨server, []⟩

/-- A step of the control loop, with what it writes. -/
def step (s : ServerRun) (e : ServerEvent) : Option ServerRun :=
  (s.server.step e).map fun r => ⟨r.1, s.written ++ r.2⟩

/-- What holds throughout: the loop is left at the first write that does not
complete. -/
def Tight (s : ServerRun) : Prop :=
  Sealed WriteOutcome.short (decide (s.server.phase = .running)) s.written

theorem Tight.start (server : Server) : Tight (start server) := Sealed.nil

theorem Tight.step {s t : ServerRun} {e : ServerEvent} (hs : Tight s) (h : s.step e = some t) :
    Tight t := by
  obtain ⟨⟨server, writes⟩, hstep, rfl⟩ := Option.map_eq_some_iff.mp h
  obtain ⟨hrunning, hwrites⟩ := Server.step_writes hstep
  refine Sealed.append hs (by simpa using hrunning) (hwrites.imp_right ?_)
  rintro ⟨hphase, w, hw, hends⟩
  refine ⟨by simpa using hphase, w, hw, hends.imp (fun hdone => ?_) (by simp)⟩
  rw [hdone]
  rfl

end ServerRun

/-! ### Whole Sessions -/

/-- The client's event, `caller` being the one the command brings. -/
def SessionEvent.event (caller : CallerId) : SessionEvent → ClientEvent
  | .register service o now => .command (.register service caller) o now
  | .unregister id o now => .command (.unregister id caller) o now
  | .other e => e

namespace Session

variable {s t : Session} {bad : WriteOutcome → Bool}

/-- The step makes no best-effort write that ends badly. -/
def spares (bad : WriteOutcome → Bool) (s : Session) (e : SessionEvent) : Bool :=
  !(s.client.bestEffort (e.event s.nextCaller)).any bad

/-- What holds throughout if every step spares the stream. -/
def Tight (bad : WriteOutcome → Bool) (s : Session) : Prop :=
  Sealed bad s.client.phase.isOpen s.written

theorem Tight.step {e : SessionEvent} (hdone : bad .done = false) (hs : Tight bad s)
    (he : s.spares bad e = true) (h : s.step e = some t) : Tight bad t := by
  obtain ⟨ce, fx, hstep, -, -, hwritten, hcase⟩ := step_eq_some h
  have hevent : ce = e.event s.nextCaller := by
    rcases hcase with ⟨_, _, _, rfl, rfl, -⟩ | ⟨_, _, _, rfl, rfl, -⟩ | ⟨rfl, -⟩ <;> rfl
  subst hevent
  obtain ⟨hstops, hclosed⟩ := Client.step_writes hstep
  unfold Tight
  rw [hwritten]
  refine Sealed.append hs (Client.isOpen_of_step hstep) ?_
  rcases hstops with hnil | ⟨m, o, hfx, hends⟩
  · exact .inl hnil
  · refine .inr ⟨?_, (m, o), hfx, ?_⟩
    · rw [← Bool.not_eq_false]
      intro hs
      rw [hclosed hs] at hfx
      cases hfx
    · rcases hends with rfl | hends | hbest
      · exact .inl hdone
      · exact .inr hends
      · exact .inl (by simpa [spares, hbest] using he)

theorem tight_exec {c : SessionConfig} {es : List SessionEvent} (hdone : bad .done = false)
    (hes : AllSteps step (fun s e => s.spares bad e = true) (start c) es)
    (hrun : exec step (start c) es = some s) : Tight bad s := by
  have hstart : Tight bad (start c) := by
    have hwritten : (start c).written = [] := by
      rcases Client.start_cases c.policy c.sessionId c.correlated c.services c.counters c.closed with
        ⟨-, -, -, hfx⟩ | ⟨s, hs, -⟩
      · exact congrArg Effects.writes hfx
      · exact congrArg (·.2.writes) hs
    unfold Tight
    rw [hwritten]
    exact .nil
  exact exec_inv (fun _ _ _ hs he h => hs.step hdone he h) hstart hes hrun

/-- **Framing on the control stream.**  In every run of the client in which no
best-effort write ends after some of its bytes only, what it puts on the stream
is complete frames and at most one incomplete one at the end; in every run in
which every best-effort write completes, nothing at all is written after a
write that did not.  The server keeps to both in every run. -/
theorem outbound_framing (c : SessionConfig) (server : Server) :
    (∀ (es : List SessionEvent) (s : Session),
      exec step (start c) es = some s →
      (AllSteps step (fun s e => s.spares WriteOutcome.torn e = true) (start c) es →
        Framed (stream s.written) ∧ Unbroken WriteOutcome.torn s.written) ∧
      (AllSteps step (fun s e => s.spares WriteOutcome.short e = true) (start c) es →
        Framed (stream s.written) ∧ Unbroken WriteOutcome.short s.written)) ∧
    (∀ (es : List ServerEvent) (s : ServerRun),
      exec ServerRun.step (.start server) es = some s →
      Framed (stream s.written) ∧ Unbroken WriteOutcome.short s.written) := by
  have hshort {ws : List Write} (h : Unbroken WriteOutcome.short ws) :
      Framed (stream ws) ∧ Unbroken WriteOutcome.short ws :=
    ⟨framed_of_unbroken fun w hw => WriteOutcome.torn_of_short (h w hw), h⟩
  refine ⟨fun es s hrun => ⟨fun hes => ?_, fun hes => ?_⟩, fun es s hrun => ?_⟩
  · have htight := (tight_exec rfl hes hrun).unbroken
    exact ⟨framed_of_unbroken htight, htight⟩
  · exact hshort (tight_exec rfl hes hrun).unbroken
  · have htight : s.Tight :=
      exec_inv_of_step (fun _ _ _ hs h => ServerRun.Tight.step hs h) (.start server) hrun
    exact hshort htight.unbroken

/-- A serial Session in which the request of a dynamic registration is cut
short: the client stops. -/
def cutRequest : List SessionEvent :=
  readyAndWaiting.take 2 ++ [.register mailService (.cut 3) 0]

/-- The Session after that run. -/
def afterCutRequest : Session := (exec step (start smallSession) cutRequest).get (by decide +kernel)

/-- A server Session without Services, and the `Pong` it is cut short in. -/
def smallServer : Server where
  sessionId := smallSession.sessionId
  policy := .default
  bindPolicy := .default
  negotiated := legacyPeer
  services := ∅
  names := []
  children := []
  queue := []
  counters := .new
  phase := .running

/-- A `Pong` is cut after three bytes. -/
def cutPong : List ServerEvent :=
  [.incoming (.ping ⟨1⟩) .bindFailed .done, .incoming (.ping ⟨2⟩) .bindFailed (.cut 3)]

/-- The control loop after that run. -/
def afterCutPong : ServerRun :=
  (exec ServerRun.step (.start smallServer) cutPong).get (by decide +kernel)

theorem framing_after_cut_writes :
    (afterCutRequest.written.length = 2 ∧ Framed (stream afterCutRequest.written)) ∧
    (afterCutPong.written.length = 2 ∧ Framed (stream afterCutPong.written)) :=
  ⟨⟨by decide +kernel, (((outbound_framing smallSession smallServer).1 cutRequest afterCutRequest
      (Option.eq_some_of_isSome _)).1 (by decide +kernel)).1⟩,
    by decide +kernel, ((outbound_framing smallSession smallServer).2 cutPong afterCutPong
      (Option.eq_some_of_isSome _)).1⟩

/-- The Session without Services. -/
def bareSession : SessionConfig := { smallSession with services := .new [] }

/-- Two removals of a Service that is not there, the first of them cut short
after one byte. -/
def cutRemoval : List SessionEvent := [.unregister ⟨9⟩ (.cut 1) 0, .unregister ⟨9⟩ .done 0]

/-- The Session after that run. -/
def afterCutRemoval : Session := (exec step (start bareSession) cutRemoval).get (by decide +kernel)

/-- **A best-effort write can tear the stream**: the client goes on after the
first byte of a frame, and the next frame follows it. -/
theorem best_effort_tears_stream :
    ¬ ∀ (c : SessionConfig) (es : List SessionEvent) (s : Session),
      exec step (start c) es = some s → Framed (stream s.written) := by
  intro h
  obtain ⟨ms, last, n, hbytes⟩ := h bareSession cutRemoval afterCutRemoval (Option.eq_some_of_isSome _)
  have hhead : (stream afterCutRemoval.written).take 2 = [0x45, 0x45] := by decide +kernel
  rw [hbytes] at hhead
  -- whatever comes first is the beginning of a frame, of at least two bytes
  cases ms with
  | nil =>
      have hn : 2 ≤ n := by
        have hlen := congrArg List.length hhead
        simp at hlen
        omega
      rw [List.flatMap_nil, List.nil_append, List.take_take, min_eq_left hn] at hhead
      cases hhead
  | cons m ms =>
      have hframe : m.frame.take 2 = [0x45, 0x45] := by
        rw [← hhead, List.flatMap_cons, List.append_assoc, List.take_append_of_le_length]
        simp [Message.frame, frameHeader, magic]
      cases hframe

end Session

end Eggtunnel
