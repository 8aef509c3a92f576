/-
Eggtunnel/Callers.lean

Who waits for an answer to a registration.

A caller waits while a transaction holds its reply channel.  Every operation
that takes a transaction out of the tables either answers its caller or finds
the caller gone; `waits_step` says so of every step of a Session.
-/
import Eggtunnel.ClientSteps

namespace Eggtunnel

/-- The caller is among those answered. -/
def Answered (answers : List Answer) (caller : CallerId) : Prop :=
  ∃ result, (caller, result) ∈ answers

theorem answered_answer (result : Except TunnelError EffectiveBind) (caller : CallerId) :
    Answered (answer result (some caller)) caller := ⟨result, List.mem_singleton_self _⟩

theorem Answered.append_left {l : List Answer} {caller : CallerId} (h : Answered l caller)
    (l' : List Answer) : Answered (l ++ l') caller :=
  h.imp fun _ hmem => List.mem_append_left _ hmem

theorem Answered.append_right {l : List Answer} {caller : CallerId} (h : Answered l caller)
    (l' : List Answer) : Answered (l' ++ l) caller :=
  h.imp fun _ hmem => List.mem_append_right _ hmem

/-- Everybody whose reply is in the list is answered. -/
theorem answered_flatMap {l : List PendingRegistration} {txn : PendingRegistration}
    (hmem : txn ∈ l) {caller : CallerId} (hreply : txn.reply = some caller)
    (result : Except TunnelError EffectiveBind) :
    Answered (l.flatMap fun txn => answer result txn.reply) caller := by
  refine ⟨result, List.mem_flatMap.mpr ⟨txn, hmem, ?_⟩⟩
  rw [hreply]
  exact List.mem_singleton_self _

/-! ### The operations of the tables -/

namespace ServiceState

variable {s t : ServiceState} {id : ServiceId} {caller : CallerId}

/-- Nothing is pending, in flight or active. -/
def Vacant (s : ServiceState) : Prop := s.pending = none ∧ s.inFlight = ∅ ∧ s.active = ∅

/-- The caller waits for the answer to one of the transactions. -/
def Waits (s : ServiceState) (caller : CallerId) : Prop :=
  ∃ txn ∈ s.transactions, txn.reply = some caller

theorem waits_iff : s.Waits caller ↔
    (∃ txn, s.pending = some txn ∧ txn.reply = some caller) ∨
    ∃ id txn, s.inFlight.lookup id = some txn ∧ txn.reply = some caller := by
  unfold Waits transactions
  constructor
  · rintro ⟨txn, hmem, hreply⟩
    rcases List.mem_append.mp hmem with hmem | hmem
    · exact .inl ⟨txn, Option.mem_toList.mp hmem, hreply⟩
    · obtain ⟨id, hid⟩ := Table.mem_values.mp hmem
      exact .inr ⟨id, txn, hid, hreply⟩
  · rintro (⟨txn, hp, hreply⟩ | ⟨id, txn, hid, hreply⟩)
    · exact ⟨txn, List.mem_append_left _ (Option.mem_toList.mpr hp), hreply⟩
    · exact ⟨txn, List.mem_append_right _ (Table.mem_values.mpr ⟨id, hid⟩), hreply⟩

/-- Taking the slot leaves everybody else waiting. -/
theorem Waits.take_pending {txn : PendingRegistration} (h : s.Waits caller)
    (hp : s.pending = some txn) :
    txn.reply = some caller ∨ ({ s with pending := none } : ServiceState).Waits caller := by
  rcases waits_iff.mp h with ⟨slot, hslot, hreply⟩ | hin
  · rw [hp] at hslot
    obtain rfl := Option.some.inj hslot
    exact .inl hreply
  · exact .inr (waits_iff.mpr (.inr hin))

/-- Taking one transaction leaves everybody else waiting. -/
theorem Waits.take_inFlight {txn : PendingRegistration} (h : s.Waits caller)
    (hid : s.inFlight.lookup id = some txn) : txn.reply = some caller ∨
      ({ s with inFlight := s.inFlight.erase id } : ServiceState).Waits caller := by
  rcases waits_iff.mp h with hp | ⟨id', txn', hid', hreply⟩
  · exact .inr (waits_iff.mpr (.inl hp))
  · rcases eq_or_ne id' id with rfl | hne
    · rw [hid] at hid'
      obtain rfl := Option.some.inj hid'
      exact .inl hreply
    · refine .inr (waits_iff.mpr (.inr ⟨id', txn', ?_, hreply⟩))
      rw [Table.lookup_erase_eq, if_neg hne]
      exact hid'

theorem Waits.takeTransaction (hw : s.Waits caller) {take : TransactionTake}
    (h : s.takeTransaction id = (t, take)) :
    (∃ txn home, take = .found txn home ∧ txn.reply = some caller) ∨ t.Waits caller := by
  unfold ServiceState.takeTransaction at h
  split at h
  · rename_i txn hp
    split_ifs at h
    · obtain ⟨rfl, rfl⟩ := Prod.mk.inj h
      exact (hw.take_pending hp).imp_left fun hr => ⟨txn, _, rfl, hr⟩
    · obtain ⟨rfl, rfl⟩ := Prod.mk.inj h
      exact .inr hw
  · split at h
    · rename_i txn hid
      obtain ⟨rfl, rfl⟩ := Prod.mk.inj h
      exact (hw.take_inFlight hid).imp_left fun hr => ⟨txn, _, rfl, hr⟩
    · obtain ⟨rfl, rfl⟩ := Prod.mk.inj h
      exact .inr hw

/-- **A response that takes a transaction** names its caller, or the caller is
gone. -/
theorem Waits.takeAck (hw : s.Waits caller) {generation : Nat} {closed : CallerId → Bool}
    {d : AckDisposition} (h : s.takeAck id generation closed = (t, d)) :
    closed caller = true ∨ d = .stale (some caller) ∨
    (∃ service, d = .commit service (some caller)) ∨ t.Waits caller := by
  unfold ServiceState.takeAck at h
  rcases htake : s.takeTransaction id with ⟨u, take⟩
  have hu := hw.takeTransaction htake
  rw [htake] at h
  cases take with
  | found txn home =>
      dsimp only at h
      split_ifs at h with hgen hclosed
      · obtain ⟨rfl, rfl⟩ := Prod.mk.inj h
        rcases hu with ⟨_, _, heq, hreply⟩ | hu
        · cases heq
          exact .inr (.inl (by rw [hreply]))
        · exact .inr (.inr (.inr hu))
      · obtain ⟨rfl, rfl⟩ := Prod.mk.inj h
        rcases hu with ⟨_, _, heq, hreply⟩ | hu
        · cases heq
          rw [hreply] at hclosed
          exact .inl hclosed
        · exact .inr (.inr (.inr hu))
      · obtain ⟨rfl, rfl⟩ := Prod.mk.inj h
        rcases hu with ⟨_, _, heq, hreply⟩ | hu
        · cases heq
          exact .inr (.inr (.inl ⟨_, by rw [hreply]⟩))
        · exact .inr (.inr (.inr hu))
  | mismatched | missing =>
      -- a tombstone concerns nobody
      have hu : u.Waits caller := hu.resolve_left (by rintro ⟨_, _, heq, -⟩; cases heq)
      refine .inr (.inr (.inr ?_))
      rcases hlookup : u.abandoned.lookup id with - | g <;>
        simp only [takeTombstone, hlookup] at h <;>
      · obtain ⟨rfl, -⟩ := Prod.mk.inj h
        exact hu

theorem Waits.takeReject (hw : s.Waits caller) {generation : Nat} {d : RejectDisposition}
    (h : s.takeReject id generation = (t, d)) :
    d = .stale (some caller) ∨ d = .reject (some caller) ∨ t.Waits caller := by
  unfold ServiceState.takeReject at h
  rcases htake : s.takeTransaction id with ⟨u, take⟩
  have hu := hw.takeTransaction htake
  rw [htake] at h
  cases take with
  | found txn home =>
      dsimp only at h
      split_ifs at h with hgen
      all_goals
        obtain ⟨rfl, rfl⟩ := Prod.mk.inj h
        rcases hu with ⟨_, _, heq, hreply⟩ | hu
        · cases heq
          simp [hreply]
        · exact .inr (.inr hu)
  | mismatched | missing =>
      have hu : u.Waits caller := hu.resolve_left (by rintro ⟨_, _, heq, -⟩; cases heq)
      refine .inr (.inr ?_)
      rcases hlookup : u.abandoned.lookup id with - | g <;>
        simp only [takeTombstone, hlookup] at h <;>
      · obtain ⟨rfl, -⟩ := Prod.mk.inj h
        exact hu

theorem Waits.reject (hw : s.Waits caller) {reply : Option (Option CallerId)}
    (h : s.reject = (t, reply)) : reply = some (some caller) ∨ t.Waits caller := by
  unfold ServiceState.reject at h
  obtain ⟨rfl, rfl⟩ := Prod.mk.inj h
  rcases hp : s.pending with - | txn
  · refine .inr ?_
    rw [waits_iff, hp] at hw
    exact waits_iff.mpr (hw.imp_left fun ⟨_, hnone, _⟩ => by cases hnone)
  · refine (hw.take_pending hp).imp_left fun hreply => ?_
    rw [Option.map_some, hreply]

theorem Waits.expireOverdue (hw : s.Waits caller) {now : Instant} {answers : List Answer}
    {x : Expiry} (h : s.expireOverdue now = (t, answers, x)) :
    Answered answers caller ∨ t.Waits caller := by
  -- who is overdue is answered, whoever is not stays
  unfold ServiceState.expireOverdue at h
  dsimp only at h
  rcases waits_iff.mp hw with ⟨txn, hp, hreply⟩ | ⟨k, txn, hk, hreply⟩
  · rw [hp] at h
    dsimp only at h
    split_ifs at h with hover
    · obtain ⟨-, h'⟩ := Prod.mk.inj h
      obtain ⟨rfl, -⟩ := Prod.mk.inj h'
      refine .inl (Answered.append_right ?_ _)
      rw [hreply]
      exact answered_answer _ _
    all_goals
      obtain ⟨rfl, -⟩ := Prod.mk.inj h
      exact .inr (waits_iff.mpr (.inl ⟨txn, rfl, hreply⟩))
  · rcases hover : txn.overdue now with - | -
    · have hkept : (s.inFlight.retain fun _ txn => !txn.overdue now).lookup k = some txn := by
        rw [Table.lookup_retain, hk]
        simp [hover]
      refine .inr (waits_iff.mpr (.inr ⟨k, txn, ?_, hreply⟩))
      split at h
      · split_ifs at h <;> obtain ⟨rfl, -⟩ := Prod.mk.inj h <;> exact hkept
      · obtain ⟨rfl, -⟩ := Prod.mk.inj h
        exact hkept
    · have hremoved : Answered ((s.inFlight.values.filter (·.overdue now)).flatMap
          fun txn => answer (.error .timeout) txn.reply) caller :=
        answered_flatMap (List.mem_filter.mpr ⟨Table.mem_values.mpr ⟨k, hk⟩, hover⟩) hreply _
      refine .inl ?_
      split at h
      · split_ifs at h <;> obtain ⟨-, h'⟩ := Prod.mk.inj h <;> obtain ⟨rfl, -⟩ := Prod.mk.inj h'
        · exact hremoved.append_left _
        · exact hremoved
        · exact hremoved
      · obtain ⟨-, h'⟩ := Prod.mk.inj h
        obtain ⟨rfl, -⟩ := Prod.mk.inj h'
        exact hremoved

theorem Waits.abandon (hw : s.Waits caller) {answers : List Answer}
    (h : s.abandon id = (t, answers)) : Answered answers caller ∨ t.Waits caller := by
  unfold ServiceState.abandon at h
  split at h
  · rename_i txn hid
    obtain ⟨rfl, rfl⟩ := Prod.mk.inj h
    refine (hw.take_inFlight hid).imp_left fun hreply => ?_
    rw [hreply]
    exact answered_answer _ _
  · obtain ⟨rfl, rfl⟩ := Prod.mk.inj h
    exact .inr hw

theorem Waits.cancelPending (hw : s.Waits caller) (id : ServiceId) :
    Answered (s.cancelPending id).2 caller ∨ (s.cancelPending id).1.Waits caller := by
  unfold ServiceState.cancelPending
  split
  · rename_i txn hp
    split_ifs
    · refine (hw.take_pending hp).imp_left fun hreply => ?_
      dsimp only
      rw [hreply]
      exact answered_answer _ _
    · exact .inr hw
  · exact .inr hw

theorem Waits.cancelInFlight (hw : s.Waits caller) (id : ServiceId) :
    Answered (s.cancelInFlight id).2 caller ∨ (s.cancelInFlight id).1.Waits caller := by
  unfold ServiceState.cancelInFlight
  split
  · rename_i txn hid
    refine (hw.take_inFlight hid).imp_left fun hreply => ?_
    dsimp only
    rw [hreply]
    exact answered_answer _ _
  · exact .inr hw

theorem Waits.unregister (hw : s.Waits caller) {answers : List Answer} {present : Bool}
    (h : s.unregister id = (t, answers, present)) : Answered answers caller ∨ t.Waits caller := by
  unfold ServiceState.unregister at h
  dsimp only at h
  obtain ⟨rfl, h'⟩ := Prod.mk.inj h
  obtain ⟨rfl, -⟩ := Prod.mk.inj h'
  rcases hw.cancelPending id with hans | hw
  · exact .inl (hans.append_left _)
  · exact (hw.cancelInFlight id).imp_left fun hans => hans.append_right _

theorem Waits.finishPending (hw : s.Waits caller) {error : TunnelError} {answers : List Answer}
    (h : s.finishPending error = (t, answers)) : Answered answers caller := by
  obtain ⟨txn, hmem, hreply⟩ := hw
  obtain ⟨-, rfl⟩ := Prod.mk.inj h
  exact answered_flatMap hmem hreply _

/-- `begin` keeps everybody waiting, and its own caller with them. -/
theorem Waits.begin {correlated : Bool} {g : Nat} (hc : s.Consistent correlated g)
    {service : ClientService} {generation : Nat} {reply : CallerId}
    {result : Except TunnelError Unit} (h : s.begin service generation reply = (t, result)) :
    (∀ caller, s.Waits caller → t.Waits caller) ∧ (result = .ok () → t.Waits reply) := by
  unfold ServiceState.begin at h
  split_ifs at h with hdup
  · obtain ⟨rfl, rfl⟩ := Prod.mk.inj h
    exact ⟨fun _ hw => hw, fun hr => by cases hr⟩
  dsimp only at h
  split at h
  · split_ifs at h with hslot
    · obtain ⟨rfl, rfl⟩ := Prod.mk.inj h
      exact ⟨fun _ hw => hw, fun hr => by cases hr⟩
    · obtain ⟨rfl, rfl⟩ := Prod.mk.inj h
      refine ⟨fun caller hw => ?_, fun _ => waits_iff.mpr (.inl ⟨_, rfl, rfl⟩)⟩
      rcases waits_iff.mp hw with ⟨txn, hp, -⟩ | hin
      · rw [hp] at hslot
        exact absurd rfl hslot
      · exact waits_iff.mpr (.inr hin)
  · split_ifs at h with hfull
    · obtain ⟨rfl, rfl⟩ := Prod.mk.inj h
      exact ⟨fun _ hw => hw, fun hr => by cases hr⟩
    · obtain ⟨rfl, rfl⟩ := Prod.mk.inj h
      refine ⟨fun caller hw => ?_, fun _ => waits_iff.mpr
        (.inr ⟨service.id, ⟨service, generation, some reply, none⟩, ?_, rfl⟩)⟩
      · rcases waits_iff.mp hw with hp | ⟨k, txn, hk, hreply⟩
        · exact waits_iff.mpr (.inl hp)
        · -- the new entry replaces nothing: its id was free
          refine waits_iff.mpr (.inr ⟨k, txn, ?_, hreply⟩)
          dsimp only
          rw [Table.lookup_insert_eq, if_neg ?_]
          · exact hk
          · rintro rfl
            have hany := List.any_eq_false.mp (Bool.eq_false_iff.mpr hdup) txn.service
              (List.mem_append_right _ (List.mem_map_of_mem
                (List.mem_append_right _ (Table.mem_values.mpr ⟨_, hk⟩))))
            simp [hc.keyed hk] at hany
      · dsimp only
        rw [Table.lookup_insert_eq, if_pos rfl]

theorem Waits.armDeadline (hw : s.Waits caller) {deadline : Instant} :
    (s.armDeadline id deadline).Waits caller := by
  unfold ServiceState.armDeadline
  split
  · rcases waits_iff.mp hw with ⟨txn, hp, hreply⟩ | hin
    · exact waits_iff.mpr (.inl ⟨{ txn with deadline := some deadline }, by simp [hp], hreply⟩)
    · exact waits_iff.mpr (.inr hin)
  · split
    · rename_i txn hid
      rcases waits_iff.mp hw with hp | ⟨k, txn', hk, hreply⟩
      · exact waits_iff.mpr (.inl hp)
      · rcases eq_or_ne k id with rfl | hne
        · rw [hid] at hk
          obtain rfl := Option.some.inj hk
          exact waits_iff.mpr (.inr ⟨k, { txn with deadline := some deadline },
            AList.lookup_insert _, hreply⟩)
        · refine waits_iff.mpr (.inr ⟨k, txn', ?_, hreply⟩)
          dsimp only
          rw [Table.lookup_insert_eq, if_neg hne]
          exact hk
    · exact hw

end ServiceState

/-! ### The steps of a Session -/

/-- The step takes a command. -/
def ClientEvent.isCommand : ClientEvent → Bool
  | .command _ _ _ => true
  | _ => false

namespace Client

variable {s t : Client} {fx : Effects} {caller : CallerId}

/-- After the step, the caller is answered, gone, or still waiting. -/
def Attended (t : Client) (fx : Effects) (caller : CallerId) : Prop :=
  Answered fx.answers caller ∨ t.isClosed caller = true ∨ t.services.Waits caller

theorem attended_of_services (hw : s.services.Waits caller)
    (h : t.services = s.services) : t.Attended fx caller := .inr (.inr (h ▸ hw))

theorem attended_onRegisterAck {ack : RegisterAck} {o : WriteOutcome}
    (hw : s.services.Waits caller) :
    (s.onRegisterAck ack o).1.Attended (s.onRegisterAck ack o).2 caller := by
  unfold onRegisterAck
  rcases h : s.services.takeAck ack.serviceId s.generation s.isClosed with ⟨services, d⟩
  rcases hw.takeAck h with hclosed | rfl | ⟨service, rfl⟩ | hw
  · refine .inr (.inl ?_)
    cases d <;> exact hclosed
  · exact .inl (answered_answer _ _)
  · exact .inl (answered_answer _ _)
  · refine .inr (.inr ?_)
    cases d <;> exact hw

theorem attended_onError {error : ErrorMessage} (hw : s.services.Waits caller) :
    (s.onError error).1.Attended (s.onError error).2 caller := by
  unfold onError
  rcases h : s.services.reject with ⟨services, reply⟩
  rcases hw.reject h with rfl | hw
  · exact .inl (answered_answer _ _)
  · refine .inr (.inr ?_)
    cases reply <;> exact hw

theorem attended_onRegisterReject {reject : RegisterReject} (hw : s.services.Waits caller) :
    (s.onRegisterReject reject).1.Attended (s.onRegisterReject reject).2 caller := by
  unfold onRegisterReject
  split_ifs
  · rcases h : s.services.takeReject reject.serviceId s.generation with ⟨services, d⟩
    rcases hw.takeReject h with rfl | rfl | hw
    · exact .inl (answered_answer _ _)
    · exact .inl (answered_answer _ _)
    · refine .inr (.inr ?_)
      cases d <;> exact hw
  · exact .inr (.inr hw)

theorem attended_onIncoming {m : Message} {o : WriteOutcome} (hw : s.services.Waits caller) :
    (s.onIncoming m o).1.Attended (s.onIncoming m o).2 caller := by
  unfold onIncoming
  split
  · exact attended_of_services hw (s.kept_onOpen _).services
  · exact attended_of_services hw ((Kept.refl s).trySend rfl).services
  · exact attended_of_services hw (s.kept_onPong _).services
  · exact attended_onRegisterAck hw
  · exact attended_onError hw
  · exact attended_onRegisterReject hw
  · exact attended_of_services hw rfl
  · exact attended_of_services hw rfl

/-- **A `Register` attends to its own caller** and to everybody who waited. -/
theorem attended_onRegister (hc : s.services.Consistent s.correlated s.generation)
    {service : ClientService} {reply : CallerId} {o : WriteOutcome} {now : Instant}
    (hw : caller = reply ∨ s.services.Waits caller) :
    (s.onRegister service reply o now).1.Attended (s.onRegister service reply o now).2 caller := by
  unfold onRegister
  split_ifs with hlimit hclosed
  · rcases hw with rfl | hw
    · exact .inl (answered_answer _ _)
    · exact .inr (.inr hw)
  · rcases hw with rfl | hw
    · exact .inr (.inl hclosed)
    · exact .inr (.inr hw)
  · rcases h : s.services.begin service s.generation reply with ⟨services, result⟩
    obtain ⟨hkeep, hown⟩ := ServiceState.Waits.begin hc h
    cases result with
    | error e =>
        rcases hw with rfl | hw
        · exact .inl (answered_answer _ _)
        · exact .inr (.inr (hkeep caller hw))
    | ok =>
        have hw : services.Waits caller := hw.elim (fun heq => heq ▸ hown rfl) (hkeep caller)
        dsimp only
        unfold writeRegistration
        dsimp only
        split
        · exact .inr (.inr hw.armDeadline)
        · split
          · -- the slot gives up its reply to be answered
            rcases ServiceState.waits_iff.mp hw with ⟨txn, hp, hreply⟩ | hin
            · refine .inl ?_
              dsimp only
              rw [hp, Option.bind_some, hreply]
              exact answered_answer _ _
            · exact .inr (.inr (ServiceState.waits_iff.mpr (.inr hin)))
          · rcases ha : services.abandon service.id with ⟨services', answers⟩
            exact (hw.abandon ha).imp_right .inr
        · exact .inr (.inr hw)

theorem attended_onUnregister {id : ServiceId} {reply : CallerId} {o : WriteOutcome}
    (hw : s.services.Waits caller) :
    (s.onUnregister id reply o).1.Attended (s.onUnregister id reply o).2 caller := by
  unfold onUnregister
  rcases h : s.services.unregister id with ⟨services, answers, present⟩
  have hor := (hw.unregister h).imp_right (.inr : _ → s.isClosed caller = true ∨ _)
  cases present with
  | true =>
      dsimp only
      split <;> exact hor
  | false => exact hor

/-- **Every step attends to everybody who waits.** -/
theorem waits_step {correlated : Bool} (hs : s.phase.isOpen = true → s.Sound correlated)
    {e : ClientEvent} (h : s.step e = some (t, fx)) (hw : s.services.Waits caller) :
    t.Attended fx caller := by
  have hpair {r : Client × Effects} (heq : r = (t, fx)) (hr : r.1.Attended r.2 caller) :
      t.Attended fx caller := by
    rwa [heq] at hr
  have hsound (hready : s.phase = .ready) : s.Sound correlated := hs (by rw [hready]; rfl)
  -- nobody waits before the Session is ready
  have hinitial {todo : List ClientService} {sent : Bool}
      (hphase : s.phase = .registering todo sent) : False := by
    obtain ⟨txn, hmem, -⟩ := hw
    rw [((hs (by rw [hphase]; rfl)).initial (by simp [hphase])).1] at hmem
    cases hmem
  cases did_of_step h with
  | cancelRequested | callerGone => exact attended_of_services hw rfl
  | registerNext hphase | initialResponse hphase | initialReadFailed hphase =>
      exact (hinitial hphase).elim
  | incoming _ heq => exact hpair heq (attended_onIncoming hw)
  | register hready heq =>
      exact hpair heq (attended_onRegister (hsound hready).consistent (.inr hw))
  | unregister _ heq => exact hpair heq (attended_onUnregister hw)
  | readFailed hready | cancelled hready | heartbeatTick hready | registrationDeadline hready
  | outbound hready | openFinished hready | openJoined hready =>
      rcases step_own hready rfl (hsound hready).outbox h with ⟨hk, -⟩ | ⟨now, x, -, hexp, -⟩
      · exact attended_of_services hw hk.services
      · exact (hw.expireOverdue hexp).imp_right .inr
  | openDrained => exact attended_of_services hw (s.kept_onOpenFinished _ _).services
  | tornDown _ heq => exact hpair heq (.inl (hw.finishPending rfl))

/-- **The caller of a `Register` is attended to from the start.** -/
theorem register_step {correlated : Bool} (hs : s.phase.isOpen = true → s.Sound correlated)
    {service : ClientService} {o : WriteOutcome} {now : Instant}
    (h : s.step (.command (.register service caller) o now) = some (t, fx)) :
    t.Attended fx caller := by
  cases did_of_step h with
  | register hready heq =>
      have hr : (s.onRegister service caller o now).1.Attended
          (s.onRegister service caller o now).2 caller :=
        attended_onRegister (hs (by rw [hready]; rfl)).consistent (.inl rfl)
      rwa [heq] at hr

/-! ### What an error return leaves behind -/

/-- The initial exchange leaves the tables alone until it is complete. -/
theorem services_registering {todo : List ClientService} {sent : Bool} {e : ClientEvent}
    (hphase : s.phase = .registering todo sent) (h : s.step e = some (t, fx))
    (ht : t.phase ≠ .ready) : t.services = s.services := by
  rcases step_registering hphase h with ⟨-, hkept, -⟩ | ⟨service, rest, o, -, -, -, hnext⟩ |
    ⟨service, rest, m, o, -, -, -, rfl, -⟩ | ⟨err, -, rfl, -⟩
  · exact hkept.services
  · unfold registerNext at hnext
    dsimp only at hnext
    split at hnext <;> obtain ⟨rfl, -⟩ := Prod.mk.inj hnext <;> rfl
  · unfold initialResponse at ht ⊢
    split at ht
    · split_ifs at ht ⊢
      · unfold continueRegistering at ht ⊢
        split at ht
        · exact absurd rfl ht
        · rfl
      · rfl
    · rfl
  · rfl

end Client

end Eggtunnel
