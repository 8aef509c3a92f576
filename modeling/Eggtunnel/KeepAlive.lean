/-
Eggtunnel/KeepAlive.lean

The heartbeat of the client against the idle timer of the server.

The client sends a `Ping` at a tick unless one is outstanding, and the server
puts its idle timer back with every frame it reads or writes.  The first half
is about the probe: its nonce is in one place, in the client's queue or on its
way up as a `Ping`, or on its way down as a `Pong`, and nothing else of the
kind is in flight (`one_probe`).

The second half is about time.  Each side's policy is checked to have a
heartbeat interval shorter than its own idle timeout, but it is the client's
interval that meets the server's timeout.  A `Vigil` is a link with a clock and
the two timers.  If a tick is taken within `lag` and finds room for its `Ping`, the
`Ping` is read within `up` of the tick and a frame of the server within `down`, then

    interval + lag + up + down < timeout

keeps the server's timer from expiring (`never_idles`).
-/
import Eggtunnel.Phases

namespace Eggtunnel

/-- The nonce of a `Ping`. -/
def Message.pinged : Message → Option UInt64
  | .ping probe => some probe.nonce
  | _ => none

/-- The nonce of a `Pong`. -/
def Message.ponged : Message → Option UInt64
  | .pong probe => some probe.nonce
  | _ => none

/-! ### The heartbeat of the client -/

namespace Client

variable {s t u : Client} {fx : Effects}

/-- The probe of the client is as it was. -/
structure SameProbe (s t : Client) : Prop where
  heartbeat : t.heartbeat = s.heartbeat
  outbox : t.outbox.filterMap Message.pinged = s.outbox.filterMap Message.pinged

theorem SameProbe.refl (s : Client) : SameProbe s s := ⟨rfl, rfl⟩

theorem SameProbe.trySend (h : SameProbe s t) {m : Message} (hm : m.pinged = none) :
    SameProbe s (t.trySend m) := by
  unfold Client.trySend
  split_ifs
  · refine ⟨h.heartbeat, ?_⟩
    simp [List.filterMap_append, hm, h.outbox]
  · exact h

theorem sameProbe_onOpen (s : Client) (frame : Open) : SameProbe s (s.onOpen frame) := by
  unfold onOpen
  split
  · exact (SameProbe.refl s).trySend rfl
  · split_ifs
    · exact ⟨rfl, rfl⟩
    · exact (SameProbe.refl s).trySend rfl

theorem sameProbe_onOpenFinished (s : Client) (task : OpenTask) (reject : Bool) :
    SameProbe s (s.onOpenFinished task reject) := by
  unfold onOpenFinished
  have hsame : SameProbe s { s with
      opens := s.opens.erase task
      unjoined := s.unjoined + 1
      counters := { s.counters with openTasks := fetchSub s.counters.openTasks 1 } } := ⟨rfl, rfl⟩
  dsimp only
  split_ifs
  · exact hsame.trySend rfl
  · exact hsame

theorem sameProbe_initialResponse (s : Client) (service : ClientService)
    (todo : List ClientService) (m : Message) :
    SameProbe s (s.initialResponse service todo m) := by
  unfold initialResponse
  split
  · split_ifs
    · cases todo <;> exact ⟨rfl, rfl⟩
    · exact ⟨rfl, rfl⟩
  · exact ⟨rfl, rfl⟩

/-- No `Ping` is among the frames written. -/
def PingsNothing (fx : Effects) : Prop := ∀ m o, (m, o) ∈ fx.writes → m.pinged = none

/-- Every frame but a `Pong` leaves the probe alone. -/
theorem sameProbe_onIncoming (s : Client) {m : Message} (hm : m.ponged = none)
    (o : WriteOutcome) :
    SameProbe s (s.onIncoming m o).1 ∧ PingsNothing (s.onIncoming m o).2 := by
  have hquiet : PingsNothing {} := fun m o h => by cases h
  unfold onIncoming
  split
  · exact ⟨s.sameProbe_onOpen _, hquiet⟩
  · exact ⟨(SameProbe.refl s).trySend rfl, hquiet⟩
  · cases hm
  · unfold onRegisterAck
    dsimp only
    split
    · exact ⟨⟨rfl, rfl⟩, hquiet⟩
    · exact ⟨⟨rfl, rfl⟩, fun m o h => by cases h⟩
    · -- the acknowledgement of an abandoned caller is undone
      refine ⟨⟨rfl, rfl⟩, fun m o h => ?_⟩
      obtain ⟨rfl, -⟩ := Prod.mk.inj (List.mem_singleton.mp h)
      rfl
    · exact ⟨⟨rfl, rfl⟩, fun m o h => by cases h⟩
  · unfold onError
    split
    · exact ⟨⟨rfl, rfl⟩, fun m o h => by cases h⟩
    · exact ⟨⟨rfl, rfl⟩, hquiet⟩
  · unfold onRegisterReject
    split_ifs
    · split
      · exact ⟨⟨rfl, rfl⟩, fun m o h => by cases h⟩
      · exact ⟨⟨rfl, rfl⟩, fun m o h => by cases h⟩
      · exact ⟨⟨rfl, rfl⟩, hquiet⟩
    · exact ⟨⟨rfl, rfl⟩, hquiet⟩
  · exact ⟨⟨rfl, rfl⟩, hquiet⟩
  · exact ⟨⟨rfl, rfl⟩, hquiet⟩

theorem sameProbe_onRegister (s : Client) (service : ClientService) (caller : CallerId)
    (o : WriteOutcome) (now : Instant) :
    SameProbe s (s.onRegister service caller o now).1 ∧
      PingsNothing (s.onRegister service caller o now).2 := by
  have hrequest {answers : List Answer} :
      PingsNothing { writes := [(.registerService service.registration, o)], answers } := by
    intro m o' h
    obtain ⟨rfl, -⟩ := Prod.mk.inj (List.mem_singleton.mp h)
    rfl
  unfold onRegister
  split_ifs
  · exact ⟨⟨rfl, rfl⟩, fun m o h => by cases h⟩
  · exact ⟨⟨rfl, rfl⟩, fun m o h => by cases h⟩
  · split
    · exact ⟨⟨rfl, rfl⟩, fun m o h => by cases h⟩
    · unfold writeRegistration
      dsimp only
      split
      · exact ⟨⟨rfl, rfl⟩, hrequest⟩
      · split
        · exact ⟨⟨rfl, rfl⟩, hrequest⟩
        · exact ⟨⟨rfl, rfl⟩, hrequest⟩
      · exact ⟨⟨rfl, rfl⟩, hrequest⟩

theorem sameProbe_onUnregister (s : Client) (id : ServiceId) (caller : CallerId)
    (o : WriteOutcome) :
    SameProbe s (s.onUnregister id caller o).1 ∧
      PingsNothing (s.onUnregister id caller o).2 := by
  refine ⟨?_, fun m o' h => ?_⟩
  · unfold onUnregister
    dsimp only
    split
    · split <;> exact ⟨rfl, rfl⟩
    · exact ⟨rfl, rfl⟩
  · rw [onUnregister_writes] at h
    obtain ⟨rfl, -⟩ := Prod.mk.inj (List.mem_singleton.mp h)
    rfl

/-- A tick with a probe outstanding does nothing; any other sends one, if there
is room for it in the queue. -/
theorem onHeartbeatTick_cases (s : Client) (now : Instant) :
    (s.heartbeat.outstanding.isSome = true ∧ s.onHeartbeatTick now = s) ∨
    (s.heartbeat.outstanding = none ∧ ∃ n, s.outbox.length < s.policy.limits.controlQueue ∧
      (s.onHeartbeatTick now).outbox = s.outbox ++ [.ping ⟨n⟩] ∧
      (s.onHeartbeatTick now).heartbeat.outstanding = some (n, now)) ∨
    (s.heartbeat.outstanding = none ∧ ¬s.outbox.length < s.policy.limits.controlQueue ∧
      (s.onHeartbeatTick now).outbox = s.outbox ∧
      (s.onHeartbeatTick now).heartbeat.outstanding = none) := by
  unfold onHeartbeatTick
  cases hout : s.heartbeat.outstanding with
  | some probe => exact .inl ⟨rfl, rfl⟩
  | none =>
      refine .inr ?_
      by_cases hroom : s.outbox.length < s.policy.limits.controlQueue
      · exact .inl ⟨rfl, s.heartbeat.nonce + 1, hroom, by simp [hroom], by simp [hroom]⟩
      · exact .inr ⟨rfl, hroom, by simp [hroom], by simp [hroom, hout]⟩

theorem outbox_onPong (s : Client) (pong : Pong) : (s.onPong pong).outbox = s.outbox := by
  unfold onPong
  split
  · split_ifs <;> rfl
  · rfl

/-- What a step of an open client does to the probe. -/
inductive Beats (s : Client) : ClientEvent → Client → Effects → Prop
  | same {e t fx} (hsame : SameProbe s t) (hwrites : PingsNothing fx)
      (hpong : ∀ m o, e = .incoming m o → m.ponged = none)
      (htick : ∀ now, e ≠ .heartbeatTick now)
      (hready : t.phase = .ready → s.phase = .ready ∨ ∃ m o, e = .incoming m o) : Beats s e t fx
  | tick {now} (hready : s.phase = .ready) :
      Beats s (.heartbeatTick now) (s.onHeartbeatTick now) {}
  | pong {pong o} (hready : s.phase = .ready) :
      Beats s (.incoming (.pong pong) o) (s.onPong pong) {}
  | sent {m rest fx} (hqueue : s.outbox = m :: rest) (hwrites : fx.writes = [(m, .done)]) :
      Beats s (.outbound .done) { s with outbox := rest } fx

theorem beats_of_step {e : ClientEvent} (h : s.step e = some (t, fx))
    (hopen : t.phase.isOpen = true) : Beats s e t fx := by
  have hquiet : PingsNothing {} := fun m o h => by cases h
  have hown {e : ClientEvent} {u : Client} {fx : Effects} (he : e.isOwn = true)
      (htick : ∀ now, e ≠ .heartbeatTick now) (hs : SameProbe s u) (hfx : PingsNothing fx)
      (hready : u.phase = .ready → s.phase = .ready) : Beats s e u fx := by
    refine .same hs hfx ?_ htick fun hu => .inl (hready hu)
    rintro m o rfl
    cases he
  cases did_of_step h with
  | cancelRequested => exact hown rfl (by simp) ⟨rfl, rfl⟩ hquiet id
  | callerGone => exact hown rfl (by simp) ⟨rfl, rfl⟩ hquiet id
  | registerNext hphase heq =>
      unfold registerNext at heq
      dsimp only at heq
      split at heq
      · obtain ⟨rfl, rfl⟩ := Prod.mk.inj heq
        refine hown rfl (by simp) ⟨rfl, rfl⟩ (fun m o hm => ?_) (fun hu => by cases hu)
        obtain ⟨rfl, -⟩ := Prod.mk.inj (List.mem_singleton.mp hm)
        rfl
      · obtain ⟨rfl, -⟩ := Prod.mk.inj heq
        cases hopen
  | @initialResponse service todo m o hphase =>
      refine .same (s.sameProbe_initialResponse service todo m) hquiet ?_ (by simp)
        fun _ => .inr ⟨_, _, rfl⟩
      rintro m' o' hm
      cases hm
      cases m with
      | pong pong => cases hopen
      | _ => rfl
  | initialReadFailed => cases hopen
  | @incoming m o _ _ hready heq =>
      by_cases hm : m.ponged = none
      · obtain ⟨hsame, hfx⟩ := s.sameProbe_onIncoming hm o
        rw [heq] at hsame hfx
        refine .same hsame hfx ?_ (by simp) fun _ => .inl hready
        intro m' o' he
        cases he
        exact hm
      · cases m with
        | pong probe =>
            obtain ⟨rfl, rfl⟩ := Prod.mk.inj heq
            exact .pong hready
        | _ => exact absurd rfl hm
  | readFailed => cases hopen
  | cancelled _ heq =>
      obtain ⟨rfl, -⟩ := Prod.mk.inj heq
      cases hopen
  | heartbeatTick hready => exact .tick hready
  | registrationDeadline hready heq =>
      unfold onDeadline at heq
      split at heq
      · obtain ⟨rfl, -⟩ := Prod.mk.inj heq
        cases hopen
      · obtain ⟨rfl, rfl⟩ := Prod.mk.inj heq
        exact hown rfl (by simp) ⟨rfl, rfl⟩ (fun m o hm => by cases hm) fun _ => hready
  | @outbound m rest o _ _ hready hqueue heq =>
      unfold onOutbound at heq
      dsimp only at heq
      split at heq
      · rename_i hwrite
        obtain rfl := writeBudgeted_eq_ok hwrite
        obtain ⟨rfl, rfl⟩ := Prod.mk.inj heq
        exact .sent hqueue rfl
      · obtain ⟨rfl, -⟩ := Prod.mk.inj heq
        cases hopen
  | @register service caller o now _ _ hready heq =>
      obtain ⟨hsame, hfx⟩ := s.sameProbe_onRegister service caller o now
      rw [heq] at hsame hfx
      exact .same hsame hfx (by simp) (by simp) fun _ => .inl hready
  | @unregister id caller o _ _ _ hready heq =>
      obtain ⟨hsame, hfx⟩ := s.sameProbe_onUnregister id caller o
      rw [heq] at hsame hfx
      exact .same hsame hfx (by simp) (by simp) fun _ => .inl hready
  | openFinished hready =>
      exact hown rfl (by simp) (s.sameProbe_onOpenFinished _ _) hquiet fun _ => hready
  | openJoined => exact hown rfl (by simp) ⟨rfl, rfl⟩ hquiet id
  | openDrained hphase =>
      have hclosed := (step_closed (by rw [hphase]; rfl) h).2.1
      rw [hclosed] at hopen
      cases hopen
  | tornDown hphase heq =>
      obtain ⟨rfl, -⟩ := Prod.mk.inj heq
      cases hopen

end Client

/-! ### The answer of the server -/

namespace Server

variable {s t : Server} {writes : List Write}

/-- A frame that the server survives is answered by its `Pong`, if it is a
`Ping`, and by no other; what it writes is written. -/
theorem ponged_of_incoming {m : Message} {os : BindOutcome} {o : WriteOutcome}
    (h : s.step (.incoming m os o) = some (t, writes)) (ht : t.phase = .running) :
    writes.filterMap (·.1.ponged) = m.pinged.toList ∧ (∀ w ∈ writes, w.2 = .done) ∧
      ((∃ register, m = .registerService register) → writes ≠ []) := by
  have hwriting {u : Server} {m : Message} (heq : u.writing m o = (t, writes)) :
      writes = [(m, .done)] := by
    rcases u.writing_cases m o with ⟨rfl, hw⟩ | ⟨-, e, hw⟩
    · exact (Prod.mk.inj (hw.symm.trans heq)).2.symm
    · obtain ⟨rfl, -⟩ := Prod.mk.inj (hw.symm.trans heq)
      cases ht
  cases did_of_step h with
  | incoming hrun heq =>
      unfold onIncoming at heq
      split at heq
      · rename_i register
        dsimp only at heq
        rw [hwriting heq]
        refine ⟨?_, by simp, by simp⟩
        unfold response
        split
        · rfl
        · split_ifs <;> rfl
      · obtain ⟨-, rfl⟩ := Prod.mk.inj heq
        exact ⟨rfl, by simp, by simp⟩
      · obtain ⟨-, rfl⟩ := Prod.mk.inj heq
        exact ⟨rfl, by simp, by simp⟩
      · rw [hwriting heq]
        exact ⟨rfl, by simp, by simp⟩
      · obtain ⟨rfl, -⟩ := Prod.mk.inj heq
        cases ht
      · obtain ⟨rfl, -⟩ := Prod.mk.inj heq
        cases ht

end Server

/-! ### The probe in flight -/

namespace Link

variable {s t : Link}

/-- The nonces of the `Ping`s the server has not read yet. -/
def pings (s : Link) : List UInt64 :=
  s.up.filterMap (·.msg.pinged) ++ s.client.outbox.filterMap Message.pinged

/-- The nonces of the `Pong`s the client has not read yet. -/
def pongs (s : Link) : List UInt64 := s.down.filterMap (·.msg.ponged)

theorem pongs_congr (h : t.down = s.down) : t.pongs = s.pongs := by
  unfold pongs
  rw [h]

/-- Both sides are in their loops, or the client is still registering. -/
structure Live (s : Link) : Prop where
  client : s.client.phase.isOpen = true
  server : s.server.phase = .running

/-- What a step does to the probe. -/
inductive Beat (s : Link) : LinkEvent → Link → Prop
  | same {e t} (hheartbeat : t.client.heartbeat = s.client.heartbeat) (hpings : t.pings = s.pings)
      (hpongs : t.pongs = s.pongs) (htick : ∀ now, e ≠ .client (.heartbeatTick now)) :
      Beat s e t
  | tick {now} (hready : s.client.phase = .ready) :
      Beat s (.client (.heartbeatTick now)) { s with client := s.client.onHeartbeatTick now }
  | heard {os o t n} (hheartbeat : t.client.heartbeat = s.client.heartbeat)
      (hpings : s.pings = n :: t.pings) (hpongs : t.pongs = s.pongs ++ [n]) :
      Beat s (.serve os o) t
  | answered {o t n} (hready : s.client.phase = .ready)
      (hclient : t.client = s.client.onPong ⟨n⟩) (hpings : t.pings = s.pings)
      (hpongs : s.pongs = n :: t.pongs) : Beat s (.deliver o) t

theorem filterMap_carry {about : Message → Option Request} {f : Message → Option UInt64}
    {writes : List Write} {packets : List Packet} (h : carry about writes = some packets)
    (hf : ∀ m o, (m, o) ∈ writes → f m = none) : packets.filterMap (fun p => f p.msg) = [] := by
  rw [List.filterMap_eq_nil_iff]
  intro p hp
  obtain ⟨m, hmem, rfl⟩ := mem_carry h p hp
  exact hf m _ hmem

theorem ponged_carry {about : Message → Option Request} {writes : List Write}
    {packets : List Packet} (h : carry about writes = some packets)
    (hdone : ∀ w ∈ writes, w.2 = .done) :
    packets.filterMap (·.msg.ponged) = writes.filterMap (·.1.ponged) ∧
      packets.length = writes.length := by
  induction writes generalizing packets with
  | nil =>
      obtain rfl := Option.some.inj h
      exact ⟨rfl, rfl⟩
  | cons w writes ih =>
      obtain ⟨m, o⟩ := w
      obtain rfl : o = .done := hdone _ List.mem_cons_self
      obtain ⟨rest, hrest, rfl⟩ := Option.map_eq_some_iff.mp (show
        (carry about writes).map (⟨m, about m⟩ :: ·) = some packets from h)
      obtain ⟨hsame, hlength⟩ := ih hrest fun w hw => hdone w (List.mem_cons_of_mem _ hw)
      refine ⟨?_, by simp [hlength]⟩
      simp only [List.filterMap_cons, hsame]

/-- A step of the client does to the probe what the client does to it. -/
theorem beat_of_clientStep {e : ClientEvent} {caller : Option CallerId} {source : Source}
    (h : s.clientStep e caller source = some t) (hopen : t.client.phase.isOpen = true) :
    t.down = s.down ∧
    ((t.client.heartbeat = s.client.heartbeat ∧ t.pings = s.pings ∧
        (∀ m o, e = .incoming m o → m.ponged = none) ∧ (∀ now, e ≠ .heartbeatTick now)) ∨
      (∃ now, e = .heartbeatTick now ∧ s.client.phase = .ready ∧
        t = { s with client := s.client.onHeartbeatTick now }) ∨
      (∃ pong o, e = .incoming (.pong pong) o ∧ s.client.phase = .ready ∧
        t.client = s.client.onPong pong ∧ t.pings = s.pings)) := by
  obtain ⟨c, fx, packets, hstep, hcarry, rfl⟩ := clientStep_eq_some h
  refine ⟨rfl, ?_⟩
  cases Client.beats_of_step hstep hopen with
  | same hsame hwrites hpong htick =>
      refine .inl ⟨hsame.heartbeat, ?_, hpong, htick⟩
      show (s.up ++ packets).filterMap _ ++ c.outbox.filterMap _ = s.pings
      rw [List.filterMap_append, filterMap_carry hcarry hwrites, List.append_nil, hsame.outbox]
      rfl
  | tick hready =>
      obtain rfl := Option.some.inj hcarry
      refine .inr (.inl ⟨_, rfl, hready, ?_⟩)
      simp
  | @pong probe o hready =>
      obtain rfl := Option.some.inj hcarry
      refine .inr (.inr ⟨probe, o, rfl, hready, rfl, ?_⟩)
      show (s.up ++ []).filterMap _ ++ (s.client.onPong probe).outbox.filterMap _ = s.pings
      rw [List.append_nil, s.client.outbox_onPong]
      rfl
  | @sent m rest fx hqueue hwrites =>
      -- the frame leaves the queue at its end and joins the stream there
      rw [hwrites] at hcarry
      obtain rfl := carry_done hcarry
      refine .inl ⟨rfl, ?_, (by simp), (by simp)⟩
      simp only [pings, hqueue, List.filterMap_append, List.filterMap_cons, List.filterMap_nil]
      split <;> simp

/-- **Inversion of a step, as the probe sees it.** -/
theorem beat_of_step (hw : Wired s) {e : LinkEvent} (h : s.step e = some t) (hlive : Live t) :
    Beat s e t := by
  cases e with
  | register service o now =>
      obtain ⟨hdown, ⟨hbeat, hpings, -⟩ | ⟨_, he, -⟩ | ⟨_, _, he, -⟩⟩ :=
        beat_of_clientStep h hlive.client
      · exact .same hbeat hpings (pongs_congr hdown) (by simp)
      · cases he
      · cases he
  | unregister id o now =>
      obtain ⟨hdown, ⟨hbeat, hpings, -⟩ | ⟨_, he, -⟩ | ⟨_, _, he, -⟩⟩ :=
        beat_of_clientStep h hlive.client
      · exact .same hbeat hpings (pongs_congr hdown) (by simp)
      · cases he
      · cases he
  | deliver o =>
      simp only [step] at h
      split at h
      · rename_i packet down hs
        obtain ⟨hdown, ⟨hbeat, hpings, hpong, -⟩ | ⟨_, he, -⟩ |
            ⟨probe, _, he, hready, hclient, hpings⟩⟩ := beat_of_clientStep h hlive.client
        · refine .same hbeat hpings ?_ (by simp)
          simp [pongs, hs, hdown, hpong _ _ rfl]
        · cases he
        · obtain ⟨hmsg, -⟩ := ClientEvent.incoming.inj he
          refine .answered hready hclient hpings ?_
          simp [pongs, hs, hdown, hmsg, Message.ponged]
      · cases h
  | client e =>
      simp only [step] at h
      split_ifs at h with hown
      obtain ⟨hdown, ⟨hbeat, hpings, -, htick⟩ | ⟨now, rfl, hready, rfl⟩ | ⟨_, _, rfl, -⟩⟩ :=
        beat_of_clientStep h hlive.client
      · refine .same hbeat hpings (pongs_congr hdown) fun now he => ?_
        exact htick now (LinkEvent.client.inj he)
      · exact .tick hready
      · cases hown
  | serve os o =>
      simp only [step] at h
      split at h
      · rename_i packet up hs
        obtain ⟨v, writes, packets, hstep, hcarry, rfl⟩ := serveStep_eq_some h
        obtain ⟨hpongs, hdone, hanswer⟩ := Server.ponged_of_incoming hstep hlive.server
        obtain ⟨hpackets, hlength⟩ := ponged_carry hcarry hdone
        -- a request is read with its answer, every other frame in any case
        have hread : (packet.about.isSome && packets.isEmpty) = false := by
          rcases hw.up packet (hs ▸ List.mem_cons_self) with ⟨r, rfl⟩ | ⟨hnone, -⟩
          · have hne := hanswer ⟨_, rfl⟩
            rw [← List.length_pos_iff, ← hlength] at hne
            simp [List.length_pos_iff.mp hne]
          · simp [hnone]
        simp only [hread, Bool.false_eq_true, if_false]
        cases hping : packet.msg.pinged with
        | none =>
            refine .same rfl ?_ ?_ (by simp)
            · simp [pings, hs, hping]
            · simp [pongs, hpackets, hpongs, hping]
        | some n =>
            refine .heard (n := n) rfl ?_ ?_
            · simp [pings, hs, hping]
            · simp [pongs, hpackets, hpongs, hping]
      · cases h
  | server e =>
      simp only [step] at h
      split_ifs at h with hown
      obtain ⟨v, writes, packets, hstep, hcarry, rfl⟩ := serverStep_eq_some h
      obtain ⟨-, hwrites⟩ := Server.step_own hown hw.queue hstep
      refine .same rfl rfl ?_ (by simp)
      have hnone : packets.filterMap (·.msg.ponged) = [] := by
        refine filterMap_carry hcarry fun m o hm => ?_
        rcases hwrites with rfl | ⟨m', o', -, rfl, hnotice⟩
        · cases hm
        · obtain ⟨rfl, -⟩ := Prod.mk.inj (List.mem_singleton.mp hm)
          cases m with
          | pong probe => cases hnotice
          | _ => rfl
      show (s.down ++ packets).filterMap _ = s.pongs
      rw [List.filterMap_append, hnone, List.append_nil]
      rfl

theorem Live.of_step (hw : Wired s) {e : LinkEvent} (h : s.step e = some t) (hlive : Live t) :
    Live s :=
  ⟨(open_of_step h hlive.client).1, running_of_step hw h hlive.server⟩

/-- The nonces in flight are those the client waits for, and a client that is
still registering waits for none. -/
structure Probed (s : Link) : Prop where
  wired : Wired s
  probe : Live s →
    s.pongs ++ s.pings = s.client.heartbeat.outstanding.toList.map (·.1)
  early : Live s → s.client.phase ≠ .ready → s.client.heartbeat.outstanding = none

/-- A new Session has a new heartbeat and an empty queue. -/
theorem probe_init (c : LinkConfig) :
    (init c).client.heartbeat = .new ∧ (init c).client.outbox = [] := by
  show (Client.start _ _ _ _ _ _).1.heartbeat = _ ∧ (Client.start _ _ _ _ _ _).1.outbox = _
  unfold Client.start
  dsimp only
  split
  · exact ⟨rfl, rfl⟩
  · unfold Client.continueRegistering
    split <;> exact ⟨rfl, rfl⟩

theorem Probed.init (c : LinkConfig) : Probed (init c) := by
  obtain ⟨hbeat, houtbox⟩ := probe_init c
  refine ⟨Wired.init c, fun _ => ?_, fun _ _ => by rw [hbeat]; rfl⟩
  rw [pongs, pings, hbeat, houtbox]
  rfl

/-- **One step keeps the probe in one place.** -/
theorem Probed.step (hs : Probed s) {e : LinkEvent} (h : s.step e = some t) : Probed t := by
  refine ⟨hs.wired.step h, fun hlive => ?_, fun hlive hearly => ?_⟩
  · have hprobe := hs.probe (hlive.of_step hs.wired h)
    cases beat_of_step hs.wired h hlive with
    | same hbeat hpings hpongs => rw [hbeat, hpings, hpongs, hprobe]
    | @tick now hready =>
        show s.pongs ++ (s.up.filterMap (·.msg.pinged) ++
          (s.client.onHeartbeatTick now).outbox.filterMap Message.pinged) = _
        rcases s.client.onHeartbeatTick_cases now with
          ⟨-, hsame⟩ | ⟨hnone, n, -, houtbox, hout⟩ | ⟨hnone, -, houtbox, hout⟩
        · rw [hsame]
          exact hprobe
        · -- nothing was in flight, and now the new `Ping` is
          rw [hnone] at hprobe
          obtain ⟨hpongs, hpings⟩ := List.append_eq_nil_iff.mp hprobe
          obtain ⟨hup, hqueue⟩ := List.append_eq_nil_iff.mp hpings
          rw [houtbox, hout, List.filterMap_append, hpongs, hup, hqueue]
          rfl
        · rw [houtbox, hout, ← hnone]
          exact hprobe
    | heard hbeat hpings hpongs =>
        rw [hbeat, ← hprobe, hpings, hpongs, List.append_assoc]
        rfl
    | @answered o _ n hready hclient hpings hpongs =>
        -- the only nonce in flight is the one expected
        rw [hpongs] at hprobe
        cases hout : s.client.heartbeat.outstanding with
        | none =>
            rw [hout] at hprobe
            cases hprobe
        | some probe =>
            rw [hout] at hprobe
            obtain ⟨hn, hrest⟩ := List.cons.inj hprobe
            rw [hpings, hclient]
            simpa [Client.onPong, hout, hn] using hrest
  · have hbefore : s.client.phase ≠ .ready :=
      fun hready => hearly ((open_of_step h hlive.client).2 hready)
    have hnone := hs.early (hlive.of_step hs.wired h) hbefore
    cases beat_of_step hs.wired h hlive with
    | same hbeat => rw [hbeat, hnone]
    | heard hbeat => rw [hbeat, hnone]
    | tick hready => exact absurd hready hbefore
    | answered hready => exact absurd hready hbefore

/-- The events with which the server puts its idle timer back. -/
def wakes : LinkEvent → Bool
  | .serve _ _ | .server (.outbound _) => true
  | _ => false

/-- Frames come down with the events that put the timer back. -/
theorem down_of_step (hw : Wired s) {e : LinkEvent} (h : s.step e = some t) (ht : t.down ≠ []) :
    s.down ≠ [] ∨ wakes e = true := by
  cases e with
  | register service o now | unregister id o now =>
      obtain ⟨c, fx, packets, -, -, rfl⟩ := clientStep_eq_some h
      exact .inl ht
  | deliver o =>
      simp only [step] at h
      split at h
      · rename_i hs
        exact .inl (by rw [hs]; simp)
      · cases h
  | serve os o => exact .inr rfl
  | client e =>
      simp only [step] at h
      split_ifs at h
      obtain ⟨c, fx, packets, -, -, rfl⟩ := clientStep_eq_some h
      exact .inl ht
  | server e =>
      simp only [step] at h
      split_ifs at h with hown
      obtain ⟨v, writes, packets, hstep, hcarry, rfl⟩ := serverStep_eq_some h
      obtain ⟨-, rfl | ⟨m, o, rfl, -⟩⟩ := Server.step_own hown hw.queue hstep
      · obtain rfl := Option.some.inj hcarry
        exact .inl (by simpa using ht)
      · exact .inr rfl

/-- A client enters its loop with the last acknowledgement it reads. -/
theorem down_of_readied {e : LinkEvent} (h : s.step e = some t)
    (hs : s.client.phase ≠ .ready) (ht : t.client.phase = .ready) : s.down ≠ [] := by
  have hopen : t.client.phase.isOpen = true := by
    rw [ht]
    rfl
  cases e with
  | serve os o | server e =>
      rw [(isServers_frame rfl h).1] at ht
      exact absurd ht hs
  | register service o now | unregister id o now =>
      obtain ⟨c, fx, packets, hstep, -, rfl⟩ := clientStep_eq_some h
      exact absurd (Client.ready_of_command hstep) hs
  | deliver o =>
      simp only [step] at h
      split at h
      · rename_i hdown
        rw [hdown]
        simp
      · cases h
  | client e =>
      simp only [step] at h
      split_ifs at h with hown
      obtain ⟨c, fx, packets, hstep, -, rfl⟩ := clientStep_eq_some h
      cases Client.beats_of_step hstep hopen with
      | same _ _ _ _ hready =>
          rcases hready ht with hready | ⟨m, o, rfl⟩
          · exact absurd hready hs
          · cases hown
      | tick hready => exact absurd hready hs
      | pong hready => exact absurd hready hs
      | sent => exact absurd ht hs

/-- The ticks of the client's heartbeat. -/
def ticks : LinkEvent → Bool
  | .client (.heartbeatTick _) => true
  | _ => false

/-- The time an event has read off the clock. -/
def instant : LinkEvent → Option Instant
  | .register _ _ now | .unregister _ _ now => some now
  | .client (.heartbeatTick now) | .client (.registrationDeadline now) => some now
  | _ => none

end Link

/-- A link with a clock.  `nextTick` is the deadline of the client's ticker,
`heard` the last time the server put its idle timer back.  The server does that
when it has read a frame, before it answers, and when it has written one of its
own: a `serve` is dated at the read, and the time its answer takes to be written
is part of the way down. -/
structure Vigil where
  link : Link
  now : Instant
  nextTick : Instant
  heard : Instant

/-- Time passes, or something happens on the link. -/
inductive VigilEvent
  | elapse (dt : Duration)
  | link (e : LinkEvent)

/-- How fast the two sides and the stream between them are: a tick is taken
within `lag`, a `Ping` is read within `up` of its tick, and a frame of the server
is read within `down`. -/
structure Delays where
  lag : Duration
  up : Duration
  down : Duration

namespace Vigil

/-- The client reads `AuthOk`, which the server wrote at 0 and armed its timer
after. -/
def init (c : LinkConfig) (arrived : Duration) : Vigil where
  link := .init c
  now := arrived
  nextTick := arrived + c.clientPolicy.timeouts.heartbeatInterval
  heard := 0

/-- A timer fires no earlier than its deadline. -/
def due (c : LinkConfig) (v : Vigil) : LinkEvent → Bool
  | .client (.heartbeatTick _) => v.nextTick ≤ v.now
  | .server .idle => v.heard + c.serverPolicy.timeouts.controlIdle ≤ v.now
  | _ => true

/-- The ticker starts with the select loop, and a tick that comes late does not
put off the next one. -/
def nextTickAfter (c : LinkConfig) (v : Vigil) (link : Link) : LinkEvent → Instant
  | .client (.heartbeatTick _) => v.nextTick + c.clientPolicy.timeouts.heartbeatInterval
  | _ =>
      if v.link.client.phase ≠ .ready ∧ link.client.phase = .ready then
        v.now + c.clientPolicy.timeouts.heartbeatInterval
      else v.nextTick

/-- A timer fires when it is due. -/
def step (c : LinkConfig) (v : Vigil) : VigilEvent → Option Vigil
  | .elapse dt => some { v with now := v.now + dt }
  | .link e =>
      if v.due c e ∧ (Link.instant e).all (· = v.now) then
        (v.link.step e).map fun link =>
          { v with
            link
            nextTick := v.nextTickAfter c link e
            heard := if Link.wakes e then v.now else v.heard }
      else none

variable {c : LinkConfig} {p : Delays} {v w : Vigil}

theorem link_of_step {e : LinkEvent} (h : v.step c (.link e) = some w) :
    v.due c e = true ∧ (Link.instant e).all (· = v.now) = true ∧
      ∃ link, v.link.step e = some link ∧ w = { v with
        link
        nextTick := v.nextTickAfter c link e
        heard := if Link.wakes e then v.now else v.heard } := by
  by_cases hguard : v.due c e ∧ (Link.instant e).all (· = v.now)
  · simp only [step, if_pos hguard] at h
    obtain ⟨link, hlink, rfl⟩ := Option.map_eq_some_iff.mp h
    exact ⟨hguard.1, hguard.2, link, hlink, rfl⟩
  · simp only [step, if_neg hguard] at h
    cases h

/-- Time does not run ahead of the two sides. -/
def InTime (p : Delays) (v : Vigil) (dt : Duration) : Prop :=
  v.link.client.phase.isOpen = true → v.link.server.phase = .running →
    (v.link.client.phase = .ready → v.now + dt ≤ v.nextTick + p.lag) ∧
    (∀ probe ∈ v.link.client.heartbeat.outstanding, v.link.pings ≠ [] →
      v.now + dt ≤ probe.2 + p.up) ∧
    (v.link.down ≠ [] → v.now + dt ≤ v.heard + p.down)

instance (p : Delays) (v : Vigil) (dt : Duration) : Decidable (InTime p v dt) :=
  inferInstanceAs (Decidable (_ → _ → _ ∧ _ ∧ _))

/-- The condition on a run: time is kept, and a tick finds room in the client's
queue. -/
def Prompt (p : Delays) (v : Vigil) : VigilEvent → Prop
  | .elapse dt => InTime p v dt
  | .link e => Link.ticks e = true →
      v.link.client.outbox.length < v.link.client.policy.limits.controlQueue

instance (p : Delays) (v : Vigil) (e : VigilEvent) : Decidable (Prompt p v e) :=
  match e with
  | .elapse dt => inferInstanceAs (Decidable (InTime p v dt))
  | .link _ => inferInstanceAs (Decidable (_ → _))

/-- The sign of life is on its way, and the idle timer leaves it the time it
needs. -/
structure Alive (c : LinkConfig) (p : Delays) (v : Vigil) : Prop where
  probed : v.link.Probed
  past : v.heard ≤ v.now
  down : v.link.Live → v.link.down ≠ [] → v.now ≤ v.heard + p.down
  ticker : v.link.Live → v.link.client.phase = .ready →
    v.nextTick ≤ v.now + c.clientPolicy.timeouts.heartbeatInterval ∧ v.now ≤ v.nextTick + p.lag
  waiting : v.link.Live → v.link.client.phase = .ready →
    v.link.client.heartbeat.outstanding = none →
    v.nextTick + p.lag + p.up < v.heard + c.serverPolicy.timeouts.controlIdle
  asking : v.link.Live → ∀ probe ∈ v.link.client.heartbeat.outstanding, v.link.pings ≠ [] →
    v.now ≤ probe.2 + p.up ∧ probe.2 + p.up < v.heard + c.serverPolicy.timeouts.controlIdle

theorem outstanding_onPong (s : Client) (pong : Pong) :
    (s.onPong pong).heartbeat.outstanding = none ∨ s.onPong pong = s := by
  unfold Client.onPong
  split
  · split_ifs
    · exact .inl rfl
    · exact .inr rfl
  · exact .inr rfl

/-- A step that does not tick keeps the probe, or its answer has come. -/
theorem outstanding_of_beat {e : LinkEvent} {link : Link} (h : v.link.Beat e link)
    (htick : ∀ now, e ≠ .client (.heartbeatTick now)) :
    (link.client.heartbeat.outstanding = v.link.client.heartbeat.outstanding ∧
      (link.pings ≠ [] → v.link.pings ≠ [])) ∨
    (link.client.heartbeat.outstanding = none ∧ v.link.client.phase = .ready ∧
      v.link.down ≠ []) := by
  cases h with
  | same hbeat hpings => exact .inl ⟨by rw [hbeat], fun hne => hpings ▸ hne⟩
  | tick => exact absurd rfl (htick _)
  | heard hbeat hpings => exact .inl ⟨by rw [hbeat], fun _ => by rw [hpings]; simp⟩
  | @answered _ _ n hready hclient hpings hpongs =>
      rcases outstanding_onPong v.link.client ⟨n⟩ with hnone | hsame
      · refine .inr ⟨by rw [hclient, hnone], hready, fun hnil => ?_⟩
        simp [Link.pongs, hnil] at hpongs
      · exact .inl ⟨by rw [hclient, hsame], fun hne => hpings ▸ hne⟩

theorem nextTickAfter_of_ne {link : Link} {e : LinkEvent}
    (htick : ∀ now, e ≠ .client (.heartbeatTick now)) :
    v.nextTickAfter c link e =
      if v.link.client.phase ≠ .ready ∧ link.client.phase = .ready then
        v.now + c.clientPolicy.timeouts.heartbeatInterval
      else v.nextTick := by
  unfold nextTickAfter
  split
  · exact absurd rfl (htick _)
  · rfl

/-- A tick sends the probe in time, if none is on its way. -/
theorem Alive.tick_step (hv : Alive c p v) {now : Instant}
    (hroom : v.link.client.outbox.length < v.link.client.policy.limits.controlQueue)
    (hdue : v.nextTick ≤ v.now) (hnow : now = v.now) {link : Link}
    (h : v.link.step (.client (.heartbeatTick now)) = some link) :
    Alive c p { v with
      link, nextTick := v.nextTick + c.clientPolicy.timeouts.heartbeatInterval } := by
  obtain ⟨client, fx, packets, hstep, hcarry, hlink⟩ := Link.clientStep_eq_some
    (show v.link.clientStep (.heartbeatTick now) none .loop = some link from h)
  cases Client.did_of_step hstep with
  | heartbeatTick hready =>
    obtain rfl := Option.some.inj hcarry
    have hbefore (hlive : link.Live) := hlive.of_step hv.probed.wired h
    refine ⟨hv.probed.step h, hv.past, fun hlive => ?_, fun hlive _ => ?_, fun hlive _ hnone => ?_,
      fun hlive probe hprobe hpings => ?_⟩
    · rw [hlink]
      exact hv.down (hbefore hlive)
    · have hticker := hv.ticker (hbefore hlive) hready
      dsimp only [Duration, Instant] at *
      omega
    · -- with room in the queue, a probe is outstanding now
      subst hlink
      exfalso
      rcases v.link.client.onHeartbeatTick_cases now with
        ⟨hsome, hsame⟩ | ⟨-, n, -, -, hout⟩ | ⟨-, hfull, -⟩
      · rw [hsame] at hnone
        rw [hnone] at hsome
        cases hsome
      · rw [hout] at hnone
        cases hnone
      · exact hfull hroom
    · subst hlink
      rcases v.link.client.onHeartbeatTick_cases now with
        ⟨hsome, hsame⟩ | ⟨hnone, n, -, -, hout⟩ | ⟨-, hfull, -⟩
      · rw [hsame] at hprobe
        refine hv.asking (hbefore hlive) probe hprobe ?_
        simpa [Link.pings, hsame] using hpings
      · obtain rfl : (n, now) = probe := Option.some.inj (hout.symm.trans hprobe)
        have hticker := hv.ticker (hbefore hlive) hready
        have hwaiting := hv.waiting (hbefore hlive) hready hnone
        dsimp only [Duration, Instant] at *
        omega
      · exact absurd hroom hfull

section
variable (hlong : c.clientPolicy.timeouts.heartbeatInterval + p.lag + p.up + p.down
  < c.serverPolicy.timeouts.controlIdle)
include hlong

/-- The server hears from the client before its timer expires. -/
theorem Alive.in_time (h : Alive c p v) (hlive : v.link.Live)
    (hready : v.link.client.phase = .ready) :
    v.now < v.heard + c.serverPolicy.timeouts.controlIdle := by
  have hdown := h.down hlive
  have hprobe := h.probed.probe hlive
  dsimp only [Duration, Instant] at *
  cases hout : v.link.client.heartbeat.outstanding with
  | none =>
      have hticker := (h.ticker hlive hready).2
      have hwaiting := h.waiting hlive hready hout
      dsimp only [Duration, Instant] at hticker hwaiting
      omega
  | some probe =>
      rw [hout] at hprobe
      by_cases hpings : v.link.pings = []
      · -- the answer is on its way down
        have hne : v.link.down ≠ [] := by
          intro hnil
          simp [hpings, Link.pongs, hnil] at hprobe
        have := hdown hne
        omega
      · obtain ⟨hnow, hlate⟩ := h.asking hlive probe hout hpings
        dsimp only [Duration, Instant] at hnow hlate
        omega

theorem Alive.init {arrived : Duration} (harrived : arrived ≤ p.down) :
    Alive c p (init c arrived) := by
  refine ⟨Link.Probed.init c, Nat.zero_le _, fun _ hdown => absurd rfl hdown,
    fun _ _ => ⟨le_rfl, ?_⟩, fun _ _ _ => ?_, fun _ probe hprobe => ?_⟩
  · exact (Nat.le_add_right _ _).trans (Nat.le_add_right _ _)
  · show arrived + _ + p.lag + p.up < 0 + _
    dsimp only [Duration, Instant] at *
    omega
  · rw [show (Vigil.init c arrived).link = Link.init c from rfl, (Link.probe_init c).1] at hprobe
    cases hprobe

/-- The ticker and the idle timer after a step that does not tick. -/
theorem Alive.link_step (hv : Alive c p v) {e : LinkEvent}
    (htick : ∀ now, e ≠ .client (.heartbeatTick now)) {link : Link}
    (h : v.link.step e = some link) {heard : Instant} (hheard : v.heard ≤ heard)
    (hpast : heard ≤ v.now) (hwakes : Link.wakes e = true → heard = v.now) :
    Alive c p { link, now := v.now, nextTick := v.nextTickAfter c link e, heard } := by
  have hprobed := hv.probed.step h
  have hbefore (hlive : link.Live) := hlive.of_step hv.probed.wired h
  have hbeat (hlive : link.Live) := outstanding_of_beat
    (Link.beat_of_step hv.probed.wired h hlive) htick
  rw [nextTickAfter_of_ne htick]
  refine ⟨hprobed, hpast, fun hlive hdown => ?_, fun hlive hready => ?_,
    fun hlive hready hnone => ?_, fun hlive probe hprobe hpings => ?_⟩
  · rcases Link.down_of_step hv.probed.wired h hdown with hdown | hw
    · exact (hv.down (hbefore hlive) hdown).trans (Nat.add_le_add_right hheard _)
    · rw [hwakes hw]
      exact Nat.le_add_right _ _
  · by_cases hs : v.link.client.phase = .ready
    · rw [if_neg (fun hnew => hnew.1 hs)]
      exact hv.ticker (hbefore hlive) hs
    · rw [if_pos ⟨hs, hready⟩]
      exact ⟨le_rfl, (Nat.le_add_right _ _).trans (Nat.le_add_right _ _)⟩
  · -- an answer, or the last acknowledgement, came within `down`
    have hfresh (hdown : v.link.down ≠ []) {next : Instant}
        (hnext : next ≤ v.now + c.clientPolicy.timeouts.heartbeatInterval) :
        next + p.lag + p.up < heard + c.serverPolicy.timeouts.controlIdle := by
      have hnow := hv.down (hbefore hlive) hdown
      dsimp only [Duration, Instant] at *
      omega
    by_cases hs : v.link.client.phase = .ready
    · rw [if_neg (fun hnew => hnew.1 hs)]
      rcases hbeat hlive with ⟨hsame, -⟩ | ⟨-, -, hdown⟩
      · exact (hv.waiting (hbefore hlive) hs (hsame ▸ hnone)).trans_le
          (Nat.add_le_add_right hheard _)
      · exact hfresh hdown (hv.ticker (hbefore hlive) hs).1
    · rw [if_pos ⟨hs, hready⟩]
      exact hfresh (Link.down_of_readied h hs hready) le_rfl
  · rcases hbeat hlive with ⟨hsame, hne⟩ | ⟨hnone, -⟩
    · obtain ⟨hnow, hlate⟩ := hv.asking (hbefore hlive) probe (hsame ▸ hprobe) (hne hpings)
      exact ⟨hnow, hlate.trans_le (Nat.add_le_add_right hheard _)⟩
    · rw [hnone] at hprobe
      cases hprobe

/-- **One step keeps the sign of life on its way.** -/
theorem Alive.step (hv : Alive c p v) {e : VigilEvent}
    (hprompt : Prompt p v e) (h : v.step c e = some w) : Alive c p w := by
  cases e with
  | elapse dt =>
      obtain rfl := Option.some.inj h
      have hbound (hlive : v.link.Live) := hprompt hlive.client hlive.server
      refine ⟨hv.probed, hv.past.trans (Nat.le_add_right _ _), fun hlive => (hbound hlive).2.2,
        fun hlive hready => ⟨?_, (hbound hlive).1 hready⟩, hv.waiting,
        fun hlive probe hprobe hpings =>
          ⟨(hbound hlive).2.1 probe hprobe hpings, (hv.asking hlive probe hprobe hpings).2⟩⟩
      have hticker := (hv.ticker hlive hready).1
      dsimp only [Duration, Instant] at *
      omega
  | link e =>
      obtain ⟨hdue, hinstant, link, hlink, rfl⟩ := link_of_step h
      by_cases htick : ∃ now, e = .client (.heartbeatTick now)
      · obtain ⟨now, rfl⟩ := htick
        exact hv.tick_step (hprompt rfl) (of_decide_eq_true hdue)
          (by simpa [Link.instant] using hinstant) hlink
      · have hne (now : Instant) : e ≠ .client (.heartbeatTick now) := fun he => htick ⟨now, he⟩
        refine hv.link_step hlong hne hlink ?_ ?_ fun hwakes => if_pos hwakes
        · split_ifs
          · exact hv.past
          · exact le_rfl
        · split_ifs
          · exact le_rfl
          · exact hv.past

end

/-- **A prompt client keeps its Session.**  If the client's heartbeat interval
and the delays of the way up and down together are shorter than the server's idle
timeout, then in every run that keeps to those delays, and in which a tick finds
room in the client's queue, whatever else the two sides do, the server's idle timer
does not expire while the client is in its loop. -/
theorem never_idles (c : LinkConfig) (p : Delays)
    (hlong : c.clientPolicy.timeouts.heartbeatInterval + p.lag + p.up + p.down
      < c.serverPolicy.timeouts.controlIdle)
    {arrived : Duration} (harrived : arrived ≤ p.down) {es : List VigilEvent}
    (hprompt : AllSteps (step c) (Prompt p) (init c arrived) es)
    (hrun : exec (step c) (init c arrived) es = some v)
    (hready : v.link.client.phase = .ready) :
    v.step c (.link (.server .idle)) = none ∧
      (v.link.server.phase = .running →
        v.now < v.heard + c.serverPolicy.timeouts.controlIdle) := by
  have hv : Alive c p v := exec_inv (fun _ _ _ hs hC h => hs.step hlong hC h)
    (.init hlong harrived) hprompt hrun
  have hopen : v.link.client.phase.isOpen = true := by
    rw [hready]
    rfl
  refine ⟨?_, fun hserver => hv.in_time hlong ⟨hopen, hserver⟩ hready⟩
  rw [Option.eq_none_iff_forall_ne_some]
  intro w hw
  obtain ⟨hdue, -, link, hlink, -⟩ := link_of_step hw
  obtain ⟨_, _, _, hstep, -, -⟩ := Link.serverStep_eq_some
    (show v.link.serverStep .idle = some link from hlink)
  cases Server.did_of_step hstep with
  | idle hrunning =>
      have hnow := hv.in_time hlong ⟨hopen, hrunning⟩ hready
      have hexpired : v.heard + c.serverPolicy.timeouts.controlIdle ≤ v.now :=
        of_decide_eq_true hdue
      exact absurd hexpired (Nat.not_le.mpr hnow)

/-- A Session under the default policies with two ticks: the first probe comes
back, the second is with the server. -/
def heartbeats : List VigilEvent :=
  [.elapse (secs 20), .link (.client (.heartbeatTick (secs 20 + millis 5))),
    .link (.client (.outbound .done)), .elapse (millis 50), .link (.serve .bindFailed .done),
    .elapse (millis 60), .link (.deliver .done), .elapse (secs 20 - millis 110),
    .link (.client (.heartbeatTick (secs 40 + millis 5))), .link (.client (.outbound .done)),
    .elapse (millis 50), .link (.serve .bindFailed .done), .elapse (millis 60)]

/-- The link after that run. -/
def vigilant : Option Vigil :=
  exec (step (smallLink correlatedPeer [])) (init (smallLink correlatedPeer []) (millis 5))
    heartbeats

theorem never_idles_default :
    ∃ v, vigilant = some v ∧ v.step (smallLink correlatedPeer []) (.link (.server .idle)) = none ∧
      v.now < v.heard + secs 90 := by
  obtain ⟨v, hrun, hready, hserver⟩ : ∃ v, vigilant = some v ∧ v.link.client.phase = .ready ∧
      v.link.server.phase = .running := by decide +kernel
  obtain ⟨hidle, hnow⟩ := never_idles (smallLink correlatedPeer [])
    ⟨millis 10, millis 100, millis 100⟩ (by decide) (by decide) (by decide +kernel) hrun hready
  exact ⟨v, hrun, hidle, hnow hserver⟩

end Vigil

end Eggtunnel
