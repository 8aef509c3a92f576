/-
Eggtunnel/Waiting.lean

How long a registration waits, and what a refused one leaves behind.

`begin` makes a transaction without a deadline; the select loop arms it once
the request is written, or gives the transaction up, or is left.  So between
two branches of the loop every transaction has a deadline
(`armed_of_step`), and a sweep removes those that are due and no others
(`swept_expireOverdue`).

A `begin` that is refused for lack of room has already dropped the tombstone of
its id (`begin_eq_error`), and the late answer that the tombstone stood for
then finds nothing.
-/
import Eggtunnel.History

namespace Eggtunnel

namespace ServiceState

variable {s t u : ServiceState} {id : ServiceId}

/-! ### A refused `begin` -/

/-- Every response and every `unregister` that comes next gives on `t` what it
gives on `s`. -/
structure Alike (s t : ServiceState) : Prop where
  takeAck : ∀ id generation closed,
    (t.takeAck id generation closed).2 = (s.takeAck id generation closed).2
  takeReject : ∀ id generation, (t.takeReject id generation).2 = (s.takeReject id generation).2
  reject : t.reject.2 = s.reject.2
  unregister : ∀ id, (t.unregister id).2 = (s.unregister id).2

theorem Alike.refl (s : ServiceState) : Alike s s :=
  ⟨fun _ _ _ => rfl, fun _ _ => rfl, rfl, fun _ => rfl⟩

/-- An id that nothing claims has no transaction to take. -/
theorem takeTransaction_of_not_duplicate (hkeyed : s.Keyed) {service : ClientService}
    (hdup : s.duplicate service = false) :
    (s.takeTransaction service.id).1 = s ∧
      ∀ txn home, (s.takeTransaction service.id).2 ≠ .found txn home := by
  rcases h : s.takeTransaction service.id with ⟨v, ⟨txn, home⟩ | - | -⟩
  · have hid : txn.service.id = service.id := by
      obtain ⟨-, hid, -⟩ | ⟨-, hlook, -⟩ := takeTransaction_eq_found h
      · exact hid
      · exact hkeyed _ _ hlook
    have hclaimed : txn.service ∈ s.claimed :=
      List.mem_append_right _ (List.mem_map_of_mem (mem_of_take h))
    refine absurd ?_ (not_mem_claimed_of_not_duplicate hdup).1
    exact hid ▸ List.mem_map_of_mem hclaimed
  all_goals exact ⟨(takeTransaction_not_found h (by simp)).1, by simp⟩

/-- The answer to an id without a transaction depends on its tombstone. -/
theorem takeAck_of_not_duplicate (hkeyed : s.Keyed) {service : ClientService}
    (hdup : s.duplicate service = false) (generation : Nat) (closed : CallerId → Bool) :
    (s.takeAck service.id generation closed).2 = .unexpected ↔
      s.abandoned.lookup service.id = none := by
  obtain ⟨hsame, hnone⟩ := takeTransaction_of_not_duplicate hkeyed hdup
  unfold takeAck
  rcases h : s.takeTransaction service.id with ⟨v, take⟩
  rw [h] at hsame hnone
  obtain rfl : v = s := hsame
  cases take with
  | found txn home => exact absurd rfl (hnone txn home)
  | mismatched | missing =>
      dsimp only [takeTombstone]
      rcases v.abandoned.lookup service.id with - | g
      · simp
      · simp only [reduceCtorEq, iff_false]
        split_ifs <;> simp

theorem erase_abandoned_eq_self_iff :
    ({ s with abandoned := s.abandoned.erase id } : ServiceState) = s ↔
      s.abandoned.lookup id = none := by
  constructor
  · intro h
    have hlook := congrArg (fun v : ServiceState => v.abandoned.lookup id) h
    rw [← hlook]
    exact AList.lookup_erase _ _
  · intro h
    rw [Table.erase_eq_self h]

/-- **A refused `begin` is harmless where there is no tombstone to lose**, and
only there. -/
theorem begin_harmless_iff (hkeyed : s.Keyed) {service : ClientService} {generation : Nat}
    {reply : CallerId} {e : TunnelError}
    (h : s.begin service generation reply = (t, .error e)) :
    (t = s ↔ s.duplicate service = true ∨ s.abandoned.lookup service.id = none) ∧
      (Alike s t ↔ s.duplicate service = true ∨ s.abandoned.lookup service.id = none) := by
  obtain ⟨hdup, -, rfl⟩ | ⟨hdup, -, rfl⟩ := begin_eq_error h
  · simp [hdup, Alike.refl]
  rw [erase_abandoned_eq_self_iff, hdup]
  simp only [Bool.false_eq_true, false_or, true_and]
  refine ⟨fun halike => ?_, fun hnone => ?_⟩
  · have hack := halike.takeAck service.id 0 fun _ => false
    have herased : (ServiceState.takeAck { s with abandoned := s.abandoned.erase service.id }
        service.id 0 fun _ => false).2 = .unexpected :=
      (takeAck_of_not_duplicate (s := { s with abandoned := s.abandoned.erase service.id })
        hkeyed hdup 0 _).mpr (AList.lookup_erase _ _)
    exact (takeAck_of_not_duplicate hkeyed hdup 0 _).mp (hack ▸ herased)
  · rw [Table.erase_eq_self hnone]
    exact Alike.refl s

/-! ### Armed transactions -/

/-- Every transaction has a deadline. -/
def Armed (s : ServiceState) : Prop := ∀ txn ∈ s.transactions, txn.deadline.isSome

theorem Armed.of_subset (hs : s.Armed) (h : t.transactions ⊆ s.transactions) : t.Armed :=
  fun txn hmem => hs txn (h hmem)

theorem transactions_clearPending (s : ServiceState) :
    ({ s with pending := none } : ServiceState).transactions ⊆ s.transactions :=
  fun _ hmem => List.mem_append_right _ hmem

theorem values_erase_subset (s : ServiceState) (id : ServiceId) :
    Table.values (s.inFlight.erase id) ⊆ s.inFlight.values := by
  intro txn hmem
  obtain ⟨k, hk⟩ := Table.mem_values.mp hmem
  rw [Table.lookup_erase_eq] at hk
  split_ifs at hk
  exact Table.mem_values.mpr ⟨k, hk⟩

theorem transactions_erase (s : ServiceState) (id : ServiceId) :
    ({ s with inFlight := s.inFlight.erase id } : ServiceState).transactions
      ⊆ s.transactions :=
  List.append_subset.mpr ⟨List.subset_append_left _ _,
    fun _ hmem => List.mem_append_right _ (values_erase_subset s id hmem)⟩

theorem transactions_settled (s : ServiceState) (id : ServiceId) :
    (s.settled id).transactions ⊆ s.transactions := by
  unfold settled
  rcases h : s.takeTransaction id with ⟨v, ⟨txn, home⟩ | - | -⟩
  · obtain ⟨-, -, rfl⟩ | ⟨-, -, rfl⟩ := takeTransaction_eq_found h
    · exact transactions_clearPending s
    · exact transactions_erase s id
  all_goals
    rw [(takeTransaction_not_found h (by simp)).1]
    exact List.Subset.refl _

theorem transactions_abandon (s : ServiceState) (id : ServiceId) :
    (s.abandon id).1.transactions ⊆ s.transactions := by
  unfold abandon
  split
  · exact transactions_erase s id
  · exact List.Subset.refl _

theorem transactions_unregister (s : ServiceState) (id : ServiceId) :
    (s.unregister id).1.transactions ⊆ s.transactions := by
  have hslot : (s.cancelPending id).1.transactions ⊆ s.transactions := by
    unfold cancelPending
    split
    · split_ifs
      · exact transactions_clearPending s
      · exact List.Subset.refl _
    · exact List.Subset.refl _
  refine List.Subset.trans ?_ hslot
  show ((s.cancelPending id).1.cancelInFlight id).1.transactions ⊆ _
  unfold cancelInFlight
  split
  · exact transactions_erase _ id
  · exact List.Subset.refl _

/-- Behind an accepted `begin`, arming its deadline leaves none unarmed. -/
theorem Armed.begin_armed (hs : s.Armed) {service : ClientService} {generation : Nat}
    {reply : CallerId} (h : s.begin service generation reply = (t, .ok ())) (deadline : Instant) :
    (t.armDeadline service.id deadline).Armed := by
  obtain ⟨-, ⟨hmode, hnone, rfl⟩ | ⟨n, hmode, -, rfl⟩⟩ := begin_eq_ok h
  · intro txn hmem
    unfold armDeadline at hmem
    simp only [hmode] at hmem
    rcases List.mem_append.mp hmem with hslot | htable
    · cases Option.mem_toList.mp hslot
      rfl
    · exact hs txn (List.mem_append_right _ htable)
  · intro txn hmem
    unfold armDeadline at hmem
    simp only [hmode, AList.lookup_insert] at hmem
    rcases List.mem_append.mp hmem with hslot | htable
    · exact hs txn (List.mem_append_left _ hslot)
    · rw [Table.values_insert] at htable
      rcases List.mem_cons.mp htable with rfl | hrest
      · rfl
      · obtain ⟨k, hk⟩ := Table.mem_values.mp hrest
        rw [Table.lookup_erase_eq, Table.lookup_insert_eq] at hk
        split_ifs at hk
        exact hs txn (List.mem_append_right _ (Table.mem_values.mpr ⟨k, hk⟩))

/-- Behind an accepted `begin` in the correlated mode, giving it up leaves what
was there. -/
theorem transactions_begin_abandon {service : ClientService} {generation n : Nat}
    {reply : CallerId} (h : s.begin service generation reply = (t, .ok ()))
    (hmode : t.mode = .correlatedBounded n) :
    (t.abandon service.id).1.transactions ⊆ s.transactions := by
  obtain ⟨-, ⟨hserial, -, rfl⟩ | ⟨m, -, -, rfl⟩⟩ := begin_eq_ok h
  · cases hserial.symm.trans hmode
  · unfold abandon
    simp only [AList.lookup_insert]
    refine List.append_subset.mpr ⟨List.subset_append_left _ _, fun txn hmem => ?_⟩
    obtain ⟨k, hk⟩ := Table.mem_values.mp hmem
    dsimp only [tombstone] at hk
    rw [Table.lookup_erase_eq, Table.lookup_insert_eq] at hk
    split_ifs at hk
    exact List.mem_append_right _ (Table.mem_values.mpr ⟨k, hk⟩)

/-! ### The sweep -/

theorem mem_filterMap_deadline {d : Instant} :
    d ∈ s.transactions.filterMap (·.deadline) ↔ ∃ txn ∈ s.transactions, txn.deadline = some d :=
  List.mem_filterMap

theorem overdue_iff {txn : PendingRegistration} {now : Instant} :
    txn.overdue now = true ↔ ∃ d, txn.deadline = some d ∧ d ≤ now := by
  simp [PendingRegistration.overdue, Option.any_eq_true]

/-- The deadline branch is enabled as soon as some transaction is due. -/
theorem nextDeadline_due_iff (s : ServiceState) (now : Instant) :
    s.nextDeadline.any (· ≤ now) = true ↔ ∃ txn ∈ s.transactions, txn.overdue now = true := by
  unfold nextDeadline
  rw [Option.any_eq_true]
  constructor
  · rintro ⟨d, hmin, hle⟩
    obtain ⟨txn, hmem, hd⟩ := mem_filterMap_deadline.mp (List.min?_mem hmin)
    exact ⟨txn, hmem, overdue_iff.mpr ⟨d, hd, by simpa using hle⟩⟩
  · rintro ⟨txn, hmem, hdue⟩
    obtain ⟨d, hd, hle⟩ := overdue_iff.mp hdue
    have hmem' := mem_filterMap_deadline.mpr ⟨txn, hmem, hd⟩
    rcases hmin : (s.transactions.filterMap (·.deadline)).min? with - | first
    · rw [List.min?_eq_none_iff] at hmin
      rw [hmin] at hmem'
      cases hmem'
    · refine ⟨first, hmin, ?_⟩
      have hfirst : first ≤ d := (List.min?_eq_some_iff.mp hmin).2 d hmem'
      exact decide_eq_true (hfirst.trans hle)

/-- What one sweep at `now` does: `r` is the state after it, the answers it
gave and its report. -/
structure Swept (s : ServiceState) (now : Instant) (r : ServiceState × List Answer × Expiry) :
    Prop where
  /-- exactly what is due is removed -/
  transactions : r.1.transactions = s.transactions.filter (!·.overdue now)
  pending : r.1.pending = s.pending.filter (!·.overdue now)
  inFlight : ∀ id, r.1.inFlight.lookup id = (s.inFlight.lookup id).filter (!·.overdue now)
  rest : r.1.desired = s.desired ∧ r.1.active = s.active ∧ r.1.abandoned = s.abandoned ∧
    r.1.mode = s.mode
  /-- and each of it is answered, if its caller still waits -/
  answers : r.2.1.Perm ((s.transactions.filter (·.overdue now)).flatMap
    fun txn => answer (.error .timeout) txn.reply)
  legacy : r.2.2 = .legacy ↔ s.pending.any (·.overdue now) = true
  correlated : r.2.2 ≠ .legacy → r.2.2 =
    if (s.transactions.filter (·.overdue now)).length = 0 then .none
    else .correlated (s.transactions.filter (·.overdue now)).length
  /-- nothing that is left is due -/
  next : ∀ d, r.1.nextDeadline = some d → now < d
  /-- a sweep that was due removes something -/
  progress : s.nextDeadline.any (· ≤ now) = true →
    r.1.transactions.length < s.transactions.length

/-- The slot alone decides between the two reports. -/
theorem expireOverdue_eq (s : ServiceState) (now : Instant) :
    s.expireOverdue now =
      ({ s with
          pending := s.pending.filter (!·.overdue now)
          inFlight := s.inFlight.retain fun _ txn => !txn.overdue now },
        (s.inFlight.values.filter (·.overdue now) ++
            (s.pending.filter (·.overdue now)).toList).flatMap
          fun txn => answer (.error .timeout) txn.reply,
        if s.pending.any (·.overdue now) then .legacy
        else if 0 < (s.inFlight.values.filter (·.overdue now)).length then
          .correlated (s.inFlight.values.filter (·.overdue now)).length
        else .none) := by
  obtain ⟨desired, active, pending, inFlight, abandoned, mode⟩ := s
  unfold expireOverdue
  cases pending with
  | none => simp
  | some txn =>
      by_cases hdue : txn.overdue now = true <;> simp [hdue, Option.filter]

/-- What is left after a sweep is not due. -/
theorem not_due_of_filter {now : Instant}
    (h : t.transactions = s.transactions.filter (!·.overdue now)) {d : Instant}
    (hd : t.nextDeadline = some d) : now < d := by
  by_contra hle
  have hdue : t.nextDeadline.any (· ≤ now) = true := by
    rw [hd]
    exact decide_eq_true (Nat.not_lt.mp hle)
  obtain ⟨txn, hmem, hoverdue⟩ := (nextDeadline_due_iff t now).mp hdue
  rw [h] at hmem
  simp [hoverdue] at hmem

/-- **A sweep removes what is due, answers it, and leaves the rest.** -/
theorem swept_expireOverdue (s : ServiceState) (now : Instant) :
    Swept s now (s.expireOverdue now) := by
  have htoList (p : PendingRegistration → Bool) :
      (s.pending.filter p).toList = s.pending.toList.filter p := by
    cases s.pending with
    | none => rfl
    | some txn => by_cases hp : p txn = true <;> simp [Option.filter, hp]
  have htransactions : (s.expireOverdue now).1.transactions
      = s.transactions.filter (!·.overdue now) := by
    rw [expireOverdue_eq]
    simp only [transactions, List.filter_append, htoList, Table.values_retain]
  have hdue : s.transactions.filter (·.overdue now) =
      (s.pending.filter (·.overdue now)).toList ++ s.inFlight.values.filter (·.overdue now) := by
    rw [transactions, List.filter_append, htoList]
  refine
    { transactions := htransactions
      pending := by rw [expireOverdue_eq]
      inFlight := fun id => by rw [expireOverdue_eq]; exact Table.lookup_retain _ _ id
      rest := by rw [expireOverdue_eq]; exact ⟨rfl, rfl, rfl, rfl⟩
      answers := ?_
      legacy := ?_
      correlated := ?_
      next := fun d hd => not_due_of_filter htransactions hd
      progress := fun hnext => ?_ }
  · rw [expireOverdue_eq, hdue]
    exact List.perm_append_comm.flatMap_right _
  · rw [expireOverdue_eq]
    dsimp only
    split_ifs with hslot <;> simp [hslot]
  · rw [expireOverdue_eq, hdue]
    dsimp only
    by_cases hslot : s.pending.any (·.overdue now) = true
    · rw [if_pos hslot]
      exact fun h => absurd rfl h
    · have hnone : s.pending.filter (·.overdue now) = none := by
        cases hp : s.pending with
        | none => rfl
        | some txn => simpa [hp] using hslot
      rw [if_neg hslot, hnone, Option.toList_none, List.nil_append]
      intro _
      split_ifs with hsome hzero hzero
      · exact absurd hzero hsome.ne'
      · rfl
      · rfl
      · exact absurd (Nat.pos_of_ne_zero hzero) hsome
  · rw [htransactions]
    obtain ⟨txn, hmem, hoverdue⟩ := (nextDeadline_due_iff s now).mp hnext
    exact List.length_filter_lt_length_iff_exists.mpr ⟨txn, hmem, by simp [hoverdue]⟩

end ServiceState

/-! ### Every transaction is armed -/

/-- Every operation but an accepted `begin` leaves the transactions armed. -/
theorem Operation.armed_apply {s : ServiceState} (hs : s.Armed) {op : Operation}
    (hop : ∀ caller service, .begun caller service ∉ op.record s) : (op.apply s).1.Armed := by
  have hempty {t : ServiceState} (h : t.transactions = []) : t.Armed := by
    intro txn hmem
    rw [h] at hmem
    cases hmem
  cases op with
  | setMode mode => exact hempty rfl
  | clearActive => exact hs
  | activateInitial => exact hs
  | begin service generation reply closed limit =>
      simp only [apply, record] at hop ⊢
      split_ifs at hop ⊢
      · exact hs
      · exact hs
      · rcases h : s.begin service generation reply with ⟨t, e | ok⟩
        · obtain ⟨-, -, rfl⟩ | ⟨-, -, rfl⟩ := ServiceState.begin_eq_error h
          · exact hs
          · exact hs
        · rw [h] at hop
          exact absurd (List.mem_singleton.mpr rfl) (hop reply service)
  | decline reply => exact hs
  | armDeadline id deadline =>
      show (s.armDeadline id deadline).Armed
      intro txn hmem
      unfold ServiceState.armDeadline at hmem
      split at hmem
      · rcases List.mem_append.mp hmem with hslot | htable
        · obtain ⟨txn', -, rfl⟩ := Option.map_eq_some_iff.mp (Option.mem_toList.mp hslot)
          rfl
        · exact hs txn (List.mem_append_right _ htable)
      · split at hmem
        · rcases List.mem_append.mp hmem with hslot | htable
          · exact hs txn (List.mem_append_left _ hslot)
          · rw [Table.values_insert] at htable
            rcases List.mem_cons.mp htable with rfl | hrest
            · rfl
            · exact hs txn (List.mem_append_right _ (s.values_erase_subset id hrest))
        · exact hs txn hmem
  | loseReply =>
      intro txn hmem
      rcases List.mem_append.mp hmem with hslot | htable
      · obtain ⟨txn', hp, rfl⟩ := Option.map_eq_some_iff.mp (Option.mem_toList.mp hslot)
        exact hs txn' (List.mem_append_left _ (Option.mem_toList.mpr hp))
      · exact hs txn (List.mem_append_right _ htable)
  | abandon id => exact hs.of_subset (s.transactions_abandon id)
  | acknowledge id generation closed bind =>
      have hsettled := hs.of_subset (s.transactions_settled id)
      rw [← s.takeAck_fst id generation closed] at hsettled
      simp only [apply]
      rcases h : s.takeAck id generation closed with ⟨t, ⟨service, reply⟩ | - | reply | -⟩ <;>
        (rw [h] at hsettled; exact hsettled)
  | takeReject id generation error =>
      have hsettled := hs.of_subset (s.transactions_settled id)
      rw [← s.takeReject_fst id generation] at hsettled
      simp only [apply]
      rcases h : s.takeReject id generation with ⟨t, reply | reply | -⟩ <;>
        (rw [h] at hsettled; exact hsettled)
  | reject error =>
      have hcleared := hs.of_subset s.transactions_clearPending
      simp only [apply, ServiceState.reject]
      rcases s.pending with - | txn <;> exact hcleared
  | expireOverdue now =>
      refine hs.of_subset ?_
      show (s.expireOverdue now).1.transactions ⊆ _
      rw [(s.swept_expireOverdue now).transactions]
      exact fun _ hmem => (List.mem_filter.mp hmem).1
  | unregister id => exact hs.of_subset (s.transactions_unregister id)
  | finishPending error => exact hempty rfl

namespace Client

variable {s t : Client} {fx : Effects}

/-- A registration arms its deadline, gives the transaction up, or ends the
Session. -/
theorem armed_onRegister (hs : s.services.Armed) (service : ClientService) (reply : CallerId)
    (o : WriteOutcome) (now : Instant)
    (hopen : (s.onRegister service reply o now).1.phase.isOpen = true) :
    (s.onRegister service reply o now).1.services.Armed := by
  unfold onRegister at hopen ⊢
  split_ifs at hopen ⊢
  · exact hs
  · exact hs
  · rcases h : s.services.begin service s.generation reply with ⟨u, e | ok⟩
    · obtain ⟨-, -, rfl⟩ | ⟨-, -, rfl⟩ := ServiceState.begin_eq_error h
      · exact hs
      · exact hs
    · rw [h] at hopen
      dsimp only at hopen ⊢
      unfold writeRegistration at hopen ⊢
      dsimp only at hopen ⊢
      split at hopen
      · exact hs.begin_armed h _
      · split at hopen
        · cases hopen
        · rename_i n hmode
          exact hs.of_subset (ServiceState.transactions_begin_abandon h hmode)
      · cases hopen

theorem begun_of_operations {e : ClientEvent} {op : Operation} (hop : op ∈ s.operations e)
    {services : ServiceState} {caller : CallerId} {service : ClientService}
    (h : .begun caller service ∈ op.record services) :
    ∃ service' reply o now, e = .command (.register service' reply) o now := by
  have hbranch := s.branch_operations e
  generalize s.operations e = ops at hbranch hop
  cases hbranch with
  | begun => exact ⟨_, _, _, _, rfl⟩
  | still => cases hop
  | acknowledged | refused | rejected | expired | unregistered | activated =>
      cases List.mem_singleton.mp hop
      simp only [Operation.record] at h
      try split at h
      all_goals simp at h
  | ended =>
      rcases List.mem_cons.mp hop with rfl | hop
      · cases h
      · cases List.mem_singleton.mp hop
        cases h

end Client

theorem Books.armed_run {b : Books} (hb : b.services.Armed) {ops : List Operation}
    (hops : ∀ op ∈ ops, ∀ services caller service,
      .begun caller service ∉ op.record services) : (b.run ops).services.Armed := by
  induction ops generalizing b with
  | nil => exact hb
  | cons op ops ih =>
      refine ih (b := b.apply op) ?_ fun other hmem => hops other (List.mem_cons_of_mem _ hmem)
      exact Operation.armed_apply hb (hops op List.mem_cons_self b.services)

namespace Client

variable {s t : Client} {fx : Effects}

/-- **Between two branches of the loop every transaction has a deadline.** -/
theorem armed_of_step {e : ClientEvent} (hs : s.phase.isOpen = true → s.services.Armed)
    (h : s.step e = some (t, fx)) (ht : t.phase.isOpen = true) : t.services.Armed := by
  have harmed := hs (isOpen_of_step h ht)
  by_cases hregister : ∃ service reply o now, e = .command (.register service reply) o now
  · obtain ⟨service, reply, o, now, rfl⟩ := hregister
    have hready := ready_of_command h
    simp only [step, hready] at h
    obtain rfl : (s.onRegister service reply o now).1 = t :=
      congrArg Prod.fst (Option.some.inj h)
    exact armed_onRegister harmed service reply o now ht
  · obtain ⟨hservices, -⟩ := performs_of_step h
    rw [← hservices]
    exact Books.armed_run harmed fun op hop _ _ _ hmem => hregister (begun_of_operations hop hmem)

/-- The deadline branch waits while nothing is due. -/
theorem step_deadline_of_quiet {now : Instant}
    (h : s.services.nextDeadline.any (· ≤ now) = false) :
    s.step (.registrationDeadline now) = none := by
  rcases hphase : s.phase with ⟨todo, sent⟩ | - | timedOut | result <;> simp [step, hphase, h]

/-- A Session starts without transactions. -/
theorem armed_start (policy : RuntimePolicy) (sessionId : SessionId) (correlated : Bool)
    (services : ServiceState) (counters : Counters) (closed : List CallerId)
    (hopen : (start policy sessionId correlated services counters closed).1.phase.isOpen
      = true) :
    (start policy sessionId correlated services counters closed).1.services.Armed := by
  rcases start_cases policy sessionId correlated services counters closed with
    ⟨-, hclosed, -⟩ | ⟨pre, hpre, hsound, hnew, -⟩
  · rw [hclosed] at hopen
    cases hopen
  · have hnone := (hsound.initial hnew).1
    rw [hpre]
    intro txn hmem
    have hsame : (pre.continueRegistering services.desired).services.transactions
        = pre.services.transactions := by
      cases services.desired <;> rfl
    rw [hsame, hnone] at hmem
    cases hmem

end Client

namespace Drive

variable {s t : Drive}

/-- The transactions of a Session that reads frames have deadlines. -/
def Timed (s : Drive) : Prop :=
  ∀ c, s.stage = .session c → c.phase.isOpen = true → c.services.Armed

theorem Timed.step (hs : Timed s) {e : DriveEvent} (h : s.step e = some t) : Timed t := by
  intro c hc hopen
  cases moves_of_step h with
  | declined hstage =>
      rw [show s.stage = .session c from hc] at hstage
      cases hstage
  | forgotten | gone | stopped => cases hc
  | failed | ended => exact absurd hc (not_session_finish _ _ _ _ c)
  | started hstage =>
      cases hc
      exact Client.armed_start _ _ _ _ _ _ hopen
  | registered hstage hstep | unregistered hstage hstep | went hstage hcmd hstep =>
      cases hc
      exact Client.armed_of_step (hs _ hstage) hstep hopen

theorem timed_of_run {c : DriveConfig} {es : List DriveEvent}
    (hrun : exec step (init c) es = some s) : Timed s := by
  refine exec_inv_of_step (fun _ _ _ hs h => hs.step h) ?_ hrun
  intro c hc
  cases hc

/-- **Registration deadlines make progress.**  In every run, at the head of the
select loop every transaction has a deadline; in every state and at every
instant a sweep removes exactly what is due and reports it (`Swept`); and from
its deadline on a transaction finds the deadline branch enabled, which takes it
out and is then not enabled again at that instant. -/
theorem registration_deadlines (c : DriveConfig) (es : List DriveEvent)
    (hrun : exec step (init c) es = some s) :
    (∀ client, s.stage = .session client → client.phase = .ready →
      ∀ txn ∈ client.services.transactions, ∃ d, txn.deadline = some d ∧
        ∀ now, d ≤ now → ∃ r, client.step (.registrationDeadline now) = some r ∧
          txn ∉ r.1.services.transactions ∧ r.1.step (.registrationDeadline now) = none) ∧
      ∀ now, s.services.Swept now (s.services.expireOverdue now) := by
  refine ⟨fun client hstage hready txn hmem => ?_, fun now => s.services.swept_expireOverdue now⟩
  have harmed := timed_of_run hrun client hstage (by rw [hready]; rfl)
  obtain ⟨d, hd⟩ := Option.isSome_iff_exists.mp (harmed txn hmem)
  refine ⟨d, hd, fun now hnow => ?_⟩
  have hoverdue := ServiceState.overdue_iff.mpr ⟨d, hd, hnow⟩
  have hdue := (client.services.nextDeadline_due_iff now).mpr ⟨txn, hmem, hoverdue⟩
  have hswept := client.services.swept_expireOverdue now
  have hservices : (client.onDeadline now).1.services = (client.services.expireOverdue now).1 := by
    unfold Client.onDeadline
    split <;> (rename_i heq; rw [heq])
  refine ⟨client.onDeadline now, by simp only [Client.step, hready, hdue, if_true], ?_, ?_⟩
  · rw [hservices, hswept.transactions]
    simp [hoverdue]
  · have hquiet : (client.onDeadline now).1.services.nextDeadline.any (· ≤ now) = false := by
      rw [hservices]
      rcases hnext : (client.services.expireOverdue now).1.nextDeadline with - | first
      · rfl
      · exact decide_eq_false (Nat.not_le.mpr (hswept.next first hnext))
    exact Client.step_deadline_of_quiet hquiet

/-- A Session with a correlated peer and two registrations under way, the
second of which is begun four seconds later. -/
def twoWaiting : List DriveEvent :=
  [.authenticated ⟨Vector.replicate 16 7⟩ true, .register webService .done 0,
    .register mailService .done (secs 4)]

/-- The supervisor after that run. -/
def afterTwoWaiting : Drive :=
  (exec step (init ⟨.default, []⟩) twoWaiting).get (by decide +kernel)

theorem registration_deadlines_two_waiting :
    exec step (init ⟨.default, []⟩) twoWaiting = some afterTwoWaiting ∧
      afterTwoWaiting.services.transactions.length = 2 ∧
      (afterTwoWaiting.services.expireOverdue (secs 10)).2.2 = .correlated 1 ∧
      ∀ d, (afterTwoWaiting.services.expireOverdue (secs 10)).1.nextDeadline = some d →
        secs 10 < d :=
  have hrun : exec step (init ⟨.default, []⟩) twoWaiting = some afterTwoWaiting :=
    Option.eq_some_of_isSome _
  ⟨hrun, by decide +kernel, by decide +kernel,
    ((registration_deadlines ⟨.default, []⟩ twoWaiting hrun).2 (secs 10)).next⟩

/-! ### What a refused registration leaves behind -/

/-- **A refused `begin` changes nothing, unless it drops a tombstone.**  In
every state of a run, a `begin` that is refused leaves the state as it was, and
everything that comes next is answered as if it had not been called, if and only
if the registration is a duplicate or its id has no tombstone. -/
theorem refused_begin (c : DriveConfig) (es : List DriveEvent)
    (hrun : exec step (init c) es = some s) (service : ClientService) (generation : Nat)
    (reply : CallerId) (t : ServiceState) (e : TunnelError)
    (h : s.services.begin service generation reply = (t, .error e)) :
    (e = .serviceAlreadyExists ∨ e = .resourceExhausted) ∧
      (t = s.services ↔ s.services.duplicate service = true ∨
        s.services.abandoned.lookup service.id = none) ∧
      (s.services.Alike t ↔ s.services.duplicate service = true ∨
        s.services.abandoned.lookup service.id = none) := by
  refine ⟨?_, ServiceState.begin_harmless_iff (settled_of_run hrun).keyed h⟩
  obtain ⟨-, rfl, -⟩ | ⟨-, rfl, -⟩ := ServiceState.begin_eq_error h
  · exact .inl rfl
  · exact .inr rfl

/-- A serial Session in which a registration is begun and cancelled, and its
slot is taken by another. -/
def slotTaken : List DriveEvent :=
  [.authenticated ⟨Vector.replicate 16 7⟩ false, .register webService .done 0,
    .unregister ⟨1⟩ .done 0, .register mailService .done 0]

/-- The supervisor after that run. -/
def afterSlotTaken : Drive :=
  (exec step (init ⟨.default, []⟩) slotTaken).get (by decide +kernel)

/-- A second registration of the Service that has the slot is refused, and the
tombstone of the other one stays. -/
theorem refused_begin_duplicate :
    exec step (init ⟨.default, []⟩) slotTaken = some afterSlotTaken ∧
      afterSlotTaken.services.abandoned.lookup ⟨1⟩ = some 1 ∧
      ∃ t, afterSlotTaken.services.begin mailService 1 3 = (t, .error .serviceAlreadyExists) ∧
        t = afterSlotTaken.services ∧ afterSlotTaken.services.Alike t := by
  have hrun : exec step (init ⟨.default, []⟩) slotTaken = some afterSlotTaken :=
    Option.eq_some_of_isSome _
  have hduplicate : afterSlotTaken.services.duplicate mailService = true := by decide +kernel
  obtain ⟨-, hsame, halike⟩ := refused_begin ⟨.default, []⟩ slotTaken hrun mailService 1 3 _ _ rfl
  exact ⟨hrun, by decide +kernel, _, rfl, hsame.mpr (.inl hduplicate), halike.mpr (.inl hduplicate)⟩

/-- The late acknowledgement of the cancelled registration. -/
def lateAck : DriveEvent :=
  .client (.incoming (.registerAck ⟨⟨1⟩, ⟨Vector.replicate 16 0, 1000⟩⟩) .done)

/-- Registering the cancelled Service once more is refused, and its tombstone is
gone: the late acknowledgement, which is cleanup otherwise, now ends the
Session. -/
theorem refused_begin_drops_tombstone :
    exec step (init ⟨.default, []⟩) slotTaken = some afterSlotTaken ∧
      (∃ t, afterSlotTaken.services.begin webService 1 3 = (t, .error .resourceExhausted) ∧
        t ≠ afterSlotTaken.services ∧ ¬ afterSlotTaken.services.Alike t) ∧
      (exec step afterSlotTaken [lateAck]).bind phase? = some .ready ∧
      (exec step afterSlotTaken [.register webService .done 0, lateAck]).bind phase?
        = some (.returned (.error (.protocol .unexpectedMessage))) := by
  refine ⟨Option.eq_some_of_isSome _, ⟨_, rfl, ?_, ?_⟩, by decide +kernel, by decide +kernel⟩
  · intro heq
    have hlook := congrArg (fun u : ServiceState => u.abandoned.lookup ⟨1⟩) heq
    revert hlook
    decide +kernel
  · intro halike
    have hack := halike.takeAck ⟨1⟩ 1 fun _ => false
    revert hack
    decide +kernel

end Drive

end Eggtunnel
