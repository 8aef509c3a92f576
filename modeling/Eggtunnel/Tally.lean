/-
Eggtunnel/Tally.lean

What a step of `run_session` does to the counters and to the Open tasks.

Most steps leave both alone.  The others are few: an acknowledgement of the
initial exchange, an `Open`, the end of an Open task, a committed registration,
an `unregister`, and the ways out of the Session.
-/
import Eggtunnel.Operations
import Eggtunnel.ClientSteps

namespace Eggtunnel

namespace Client

variable {s t : Client} {fx : Effects}

/-- A Session in phase `q` is where it was in phase `p`, or over. -/
structure Continues (p q : Phase) : Prop where
  ready : q = .ready → p = .ready
  registering : ∀ todo sent, q = .registering todo sent → ∃ sent', p = .registering todo sent'

theorem Continues.refl (p : Phase) : Continues p p := ⟨id, fun _ sent h => ⟨sent, h⟩⟩

theorem Continues.closed {p q : Phase} (h : q.isOpen = false) : Continues p q where
  ready hq := by
    rw [hq] at h
    cases h
  registering todo sent hq := by
    rw [hq] at h
    cases h

/-- The step `e` from `s` leads to `t`, as far as the counters and the Open
tasks go. -/
inductive Tally (s : Client) : ClientEvent → Client → Prop
  | still {e t} (hopens : t.opens = s.opens) (hcounters : t.counters = s.counters)
      (hsession : t.sessionId = s.sessionId)
      (hkept : ServiceState.Kept s.services t.services) (hphase : Continues s.phase t.phase) :
      Tally s e t
  | acked {service todo ack o t} (hphase : s.phase = .registering (service :: todo) true)
      (hid : ack.serviceId = service.id)
      (ht : t = ({ s with counters := { s.counters with
        binds := s.counters.binds ++ [⟨s.sessionId, service.id, ack.effectiveBind⟩] } } :
          Client).continueRegistering todo) :
      Tally s (.incoming (.registerAck ack) o) t
  | dialed {frame service o t} (hready : s.phase = .ready)
      (hactive : s.services.active.lookup frame.serviceId = some service)
      (ht : t = { s with
        opens := s.opens ++ [⟨frame, service⟩]
        counters := { s.counters with
          openTasks := fetchAdd s.counters.openTasks 1
          highWaterOpenTasks :=
            max s.counters.highWaterOpenTasks (fetchAdd s.counters.openTasks 1) } }) :
      Tally s (.incoming (.open frame) o) t
  | finished {e t} (task : OpenTask) (hmem : task ∈ s.opens) (hopens : t.opens = s.opens.erase task)
      (hcounters : t.counters
        = { s.counters with openTasks := fetchSub s.counters.openTasks 1 })
      (hsession : t.sessionId = s.sessionId) (hservices : t.services = s.services)
      (hphase : t.phase = s.phase) : Tally s e t
  | committed {ack o t service reply services} (hready : s.phase = .ready)
      (htake : s.services.takeAck ack.serviceId s.generation s.isClosed
        = (services, .commit service reply))
      (ht : t = { s with
        services := services.commit service
        counters := { s.counters with
          binds := s.counters.binds ++ [⟨s.sessionId, service.id, ack.effectiveBind⟩]
          services := (services.commit service).active.size
          highWaterServices :=
            max s.counters.highWaterServices (services.commit service).active.size } }) :
      Tally s (.incoming (.registerAck ack) o) t
  | unregistered {id reply o now t} (hready : s.phase = .ready)
      (hpresent : (s.services.unregister id).2.2 = true)
      (ht : t = { s with
        services := (s.services.unregister id).1
        counters := { s.counters with
          services := (s.services.unregister id).1.active.size
          binds := s.counters.binds.filter (·.service ≠ id) } }) :
      Tally s (.command (.unregister id reply) o now) t
  /-- there is no such Service, at most a transaction -/
  | withdrawn {id reply o now t} (hready : s.phase = .ready)
      (habsent : (s.services.unregister id).2.2 = false)
      (ht : t = { s with services := (s.services.unregister id).1 }) :
      Tally s (.command (.unregister id reply) o now) t
  /-- the `UnregisterService` could not be written -/
  | unregisteredLast {id reply o now t} (hready : s.phase = .ready)
      (hpresent : (s.services.unregister id).2.2 = true) (hopens : t.opens = [])
      (hcounters : t.counters = { s.dropSession.counters with
        services := (s.services.unregister id).1.active.size
        binds := s.counters.binds.filter (·.service ≠ id) })
      (hphase : t.phase ≠ .ready) : Tally s (.command (.unregister id reply) o now) t
  | dropped {e t} (hready : s.phase = .ready) (hopens : t.opens = [])
      (hcounters : t.counters = s.dropSession.counters) (hphase : t.phase ≠ .ready) : Tally s e t
  | tornDown {timedOut t} (hphase : s.phase = .draining timedOut) (hopens : t.opens = [])
      (hcounters : t.counters = { s.dropSession.counters with connected := 0 })
      (hsession : t.sessionId = s.sessionId) (hphase' : ∃ result, t.phase = .returned result) : Tally s .tornDown t

/-- Nothing of it has changed. -/
structure Still (s t : Client) : Prop where
  opens : t.opens = s.opens
  counters : t.counters = s.counters
  session : t.sessionId = s.sessionId
  kept : ServiceState.Kept s.services t.services
  phase : Continues s.phase t.phase

theorem Still.tally (h : Still s t) (e : ClientEvent) : Tally s e t :=
  .still h.opens h.counters h.session h.kept h.phase

theorem still_trySend (s : Client) (m : Message) : Still s (s.trySend m) := by
  unfold trySend
  split_ifs <;> exact ⟨rfl, rfl, rfl, ⟨rfl, rfl⟩, .refl _⟩

/-- The exchange goes on, or the Session ends with it. -/
theorem tally_initialResponse {service : ClientService} {todo : List ClientService}
    (hphase : s.phase = .registering (service :: todo) true) (m : Message) (o : WriteOutcome) :
    Tally s (.incoming m o) (s.initialResponse service todo m) := by
  unfold initialResponse
  split
  · split_ifs with hid
    · exact .acked hphase hid rfl
    · exact .still rfl rfl rfl ⟨rfl, rfl⟩ (.closed rfl)
  · exact .still rfl rfl rfl ⟨rfl, rfl⟩ (.closed rfl)

theorem tally_onOpen (hready : s.phase = .ready) (frame : Open) (o : WriteOutcome) :
    Tally s (.incoming (.open frame) o) (s.onOpen frame) := by
  unfold onOpen
  split
  · exact (still_trySend s _).tally _
  · rename_i service hactive
    split_ifs
    · exact .dialed hready hactive rfl
    · exact (still_trySend s _).tally _

theorem tally_onRegisterAck (hready : s.phase = .ready) (ack : RegisterAck) (o : WriteOutcome) :
    Tally s (.incoming (.registerAck ack) o) (s.onRegisterAck ack o).1 := by
  have hkept := ServiceState.kept_settled s.services ack.serviceId
  rw [← ServiceState.takeAck_fst s.services ack.serviceId s.generation s.isClosed] at hkept
  unfold onRegisterAck
  split
  · exact .dropped hready rfl rfl nofun
  · rename_i htake
    rw [htake] at hkept
    exact .still rfl rfl rfl hkept (.refl _)
  · rename_i htake
    rw [htake] at hkept
    exact .still rfl rfl rfl hkept (.refl _)
  · rename_i htake
    exact .committed hready htake rfl

theorem tally_onIncoming (hready : s.phase = .ready) (m : Message) (o : WriteOutcome) :
    Tally s (.incoming m o) (s.onIncoming m o).1 := by
  unfold onIncoming
  split
  · exact tally_onOpen hready _ o
  · exact (still_trySend s _).tally _
  · unfold onPong
    split
    · split_ifs <;> exact .still rfl rfl rfl ⟨rfl, rfl⟩ (.refl _)
    · exact .still rfl rfl rfl ⟨rfl, rfl⟩ (.refl _)
  · exact tally_onRegisterAck hready _ o
  · unfold onError ServiceState.reject
    split
    · rename_i hreject
      obtain ⟨rfl, -⟩ := Prod.mk.inj hreject
      exact .still rfl rfl rfl ⟨rfl, rfl⟩ (.refl _)
    · exact .dropped hready rfl rfl nofun
  · rename_i reject
    have hkept := ServiceState.kept_settled s.services reject.serviceId
    rw [← ServiceState.takeReject_fst s.services reject.serviceId s.generation] at hkept
    unfold onRegisterReject
    split_ifs
    · split
      · rename_i htake
        rw [htake] at hkept
        exact .still rfl rfl rfl hkept (.refl _)
      · rename_i htake
        rw [htake] at hkept
        exact .still rfl rfl rfl hkept (.refl _)
      · exact .dropped hready rfl rfl nofun
    · exact .dropped hready rfl rfl nofun
  · exact .still rfl rfl rfl ⟨rfl, rfl⟩ (.closed rfl)
  · exact .dropped hready rfl rfl nofun

theorem tally_onRegister (hready : s.phase = .ready) (service : ClientService) (reply : CallerId)
    (o : WriteOutcome) (now : Instant) (e : ClientEvent) :
    Tally s e (s.onRegister service reply o now).1 := by
  have hkept := ServiceState.kept_begin s.services service s.generation reply
  unfold onRegister
  split_ifs
  · exact .still rfl rfl rfl ⟨rfl, rfl⟩ (.refl _)
  · exact .still rfl rfl rfl ⟨rfl, rfl⟩ (.refl _)
  · split
    · rename_i hbegin
      rw [hbegin] at hkept
      exact .still rfl rfl rfl hkept (.refl _)
    · rename_i services hbegin
      rw [hbegin] at hkept
      unfold writeRegistration
      dsimp only
      split
      · obtain ⟨hdesired, hactive⟩ := ServiceState.kept_armDeadline services service.id
          (now + s.policy.timeouts.handshake)
        exact .still rfl rfl rfl ⟨hdesired.trans hkept.1, hactive.trans hkept.2⟩ (.refl _)
      · split
        · exact .still rfl rfl rfl hkept (.closed rfl)
        · obtain ⟨hdesired, hactive⟩ := ServiceState.kept_abandon services service.id
          exact .still rfl rfl rfl ⟨hdesired.trans hkept.1, hactive.trans hkept.2⟩ (.refl _)
      · exact .dropped hready rfl rfl nofun

theorem tally_onUnregister (hready : s.phase = .ready) (id : ServiceId) (reply : CallerId)
    (o : WriteOutcome) (now : Instant) :
    Tally s (.command (.unregister id reply) o now) (s.onUnregister id reply o).1 := by
  unfold onUnregister
  dsimp only
  rcases hunregister : s.services.unregister id with ⟨services, answers, - | -⟩
  · refine .withdrawn hready (by rw [hunregister]) ?_
    rw [hunregister]
  · dsimp only
    split
    · refine .unregistered hready (by rw [hunregister]) ?_
      rw [hunregister]
    · refine .unregisteredLast hready (by rw [hunregister]) rfl ?_ nofun
      rw [hunregister]
      rfl

theorem tally_onOpenFinished {task : OpenTask} (hmem : task ∈ s.opens) (reject : Bool)
    (e : ClientEvent) : Tally s e (s.onOpenFinished task reject) := by
  refine .finished task hmem ?_ ?_ ?_ ?_ (phase_onOpenFinished s task reject)
  all_goals
    unfold onOpenFinished trySend
    dsimp only
    split_ifs <;> rfl

/-- **What a step does to the counters and to the Open tasks.** -/
theorem tally_of_step {e : ClientEvent} (h : s.step e = some (t, fx)) : Tally s e t := by
  have hpair {r : Client × Effects} (heq : r = (t, fx)) (hr : Tally s e r.1) : Tally s e t := by
    rwa [heq] at hr
  cases did_of_step h with
  | cancelRequested | callerGone | openJoined =>
      exact .still rfl rfl rfl ⟨rfl, rfl⟩ (.refl _)
  | registerNext hphase heq =>
      refine hpair heq ?_
      unfold registerNext
      dsimp only
      split
      · refine .still rfl rfl rfl ⟨rfl, rfl⟩ ⟨nofun, fun _ _ heq => ?_⟩
        cases heq
        exact ⟨false, hphase⟩
      · exact .still rfl rfl rfl ⟨rfl, rfl⟩ (.closed rfl)
  | initialResponse hphase => exact tally_initialResponse hphase _ _
  | initialReadFailed => exact .still rfl rfl rfl ⟨rfl, rfl⟩ (.closed rfl)
  | incoming hready heq => exact hpair heq (tally_onIncoming hready _ _)
  | readFailed hready => exact .dropped hready rfl rfl nofun
  | cancelled _ heq => exact hpair heq (.still rfl rfl rfl ⟨rfl, rfl⟩ (.closed rfl))
  | heartbeatTick =>
      unfold onHeartbeatTick
      split_ifs <;> exact .still rfl rfl rfl ⟨rfl, rfl⟩ (.refl _)
  | @registrationDeadline now _ _ _ heq =>
      refine hpair heq ?_
      have hkept := ServiceState.kept_expireOverdue s.services now
      unfold onDeadline
      split
      · rename_i hexpire
        rw [hexpire] at hkept
        exact .still rfl rfl rfl hkept (.closed rfl)
      · rename_i hexpire
        rw [hexpire] at hkept
        exact .still rfl rfl rfl hkept (.refl _)
  | outbound hready _ heq =>
      refine hpair heq ?_
      unfold onOutbound
      dsimp only
      split
      · exact .still rfl rfl rfl ⟨rfl, rfl⟩ (.refl _)
      · exact .dropped hready rfl rfl nofun
  | register hready heq => exact hpair heq (tally_onRegister hready _ _ _ _ _)
  | unregister hready heq => exact hpair heq (tally_onUnregister hready _ _ _ _)
  | openFinished _ htask | openDrained _ htask =>
      exact tally_onOpenFinished (List.mem_of_find?_eq_some htask) _ _
  | tornDown hphase heq => exact hpair heq (.tornDown hphase rfl rfl rfl ⟨_, rfl⟩)

/-- A new Open task is for the Service that is active under the id of its
frame. -/
theorem opens_of_step {e : ClientEvent} (h : s.step e = some (t, fx)) {task : OpenTask}
    (hmem : task ∈ t.opens) :
    task ∈ s.opens ∨ ∃ o, e = .incoming (.open task.frame) o ∧
      s.services.active.lookup task.frame.serviceId = some task.service := by
  have hnil (hopens : t.opens = []) : False := by
    rw [hopens] at hmem
    cases hmem
  cases tally_of_step h with
  | still hopens => exact .inl (hopens ▸ hmem)
  | acked hphase hid ht =>
      rename_i todo _ _
      rw [ht] at hmem
      cases todo <;> exact .inl hmem
  | dialed hready hactive ht =>
      rw [ht] at hmem
      rcases List.mem_append.mp hmem with hold | hnew
      · exact .inl hold
      · obtain rfl := List.mem_singleton.mp hnew
        exact .inr ⟨_, rfl, hactive⟩
  | finished other hother hopens =>
      rw [hopens] at hmem
      exact .inl (List.mem_of_mem_erase hmem)
  | committed hready htake ht | unregistered hready hpresent ht | withdrawn hready habsent ht =>
      rw [ht] at hmem
      exact .inl hmem
  | unregisteredLast hready hpresent hopens => exact (hnil hopens).elim
  | dropped hready hopens => exact (hnil hopens).elim
  | tornDown hphase hopens => exact (hnil hopens).elim

end Client

end Eggtunnel
