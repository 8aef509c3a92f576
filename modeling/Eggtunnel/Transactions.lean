/-
Eggtunnel/Transactions.lean

What the operations of `ServiceState` do to the transactions, the tombstones
and the active Services, seen by `ServiceId`.

`live`, `dead` and `enrolled` are the client's side of an enrolment: the
request each id waits for, the ids whose answer is cleanup, and the Services
in use.  `Consistent` is what holds of the state within a Session; each
operation keeps it, and its effect on the three views is stated once.
-/
import Eggtunnel.ServiceState
import Eggtunnel.Enrol

namespace Eggtunnel

/-- A registration on its way, with the caller it was made for; the initial
registrations have none. -/
abbrev Request := Enrol.Request RegisterService (Option CallerId)

/-- The request a transaction waits for. -/
def PendingRegistration.request (txn : PendingRegistration) : Request :=
  ⟨txn.service.registration, txn.reply⟩

namespace ServiceState

/-! ### Views -/

/-- The transaction a response for `id` finds. -/
def transaction (s : ServiceState) (id : ServiceId) : Option PendingRegistration :=
  match s.pending with
  | some txn => if txn.service.id = id then some txn else none
  | none => s.inFlight.lookup id

/-- The request that is outstanding under an id. -/
def live (s : ServiceState) (id : ServiceId) : Option Request :=
  (s.transaction id).map (·.request)

/-- The ids with a tombstone. -/
def dead (s : ServiceState) : Set ServiceId := {id | (s.abandoned.lookup id).isSome}

/-- The registration that is active under an id. -/
def enrolled (s : ServiceState) (id : ServiceId) : Option RegisterService :=
  (s.active.lookup id).map (·.registration)

theorem mem_dead {s : ServiceState} {id : ServiceId} :
    id ∈ s.dead ↔ (s.abandoned.lookup id).isSome := Iff.rfl

/-- What holds of the state within a Session of the given mode and
generation. -/
structure Consistent (s : ServiceState) (correlated : Bool) (generation : Nat) : Prop where
  serial : correlated = false → s.mode = .legacySerial ∧ s.inFlight = ∅
  bounded : correlated = true → s.pending = none ∧ ∃ n, s.mode = .correlatedBounded n
  keyed : ∀ {id txn}, s.inFlight.lookup id = some txn → txn.service.id = id
  stamped : ∀ txn ∈ s.transactions, txn.generation = generation ∧ txn.reply.isSome
  tombstoned : ∀ {id g}, s.abandoned.lookup id = some g → g = generation
  desired : ∀ {id service}, s.active.lookup id = some service →
    service.id = id ∧ service ∈ s.desired

variable {s t : ServiceState} {correlated : Bool} {generation : Nat} {id : ServiceId}

theorem transaction_of_pending {txn : PendingRegistration} (h : s.pending = some txn) :
    s.transaction id = if txn.service.id = id then some txn else none := by
  rw [transaction, h]

theorem transaction_of_pending_none (h : s.pending = none) :
    s.transaction id = s.inFlight.lookup id := by
  rw [transaction, h]

/-- The two modes and where their transactions sit. -/
theorem Consistent.modes (hc : s.Consistent correlated generation) :
    (correlated = false ∧ s.mode = .legacySerial ∧ s.inFlight = ∅) ∨
    (correlated = true ∧ s.pending = none ∧ ∃ n, s.mode = .correlatedBounded n) := by
  cases correlated with
  | false => exact .inl ⟨rfl, hc.serial rfl⟩
  | true => exact .inr ⟨rfl, hc.bounded rfl⟩

/-- What a response finds is one of the transactions, under its own id. -/
theorem Consistent.transaction_mem (hc : s.Consistent correlated generation)
    {txn : PendingRegistration} (h : s.transaction id = some txn) :
    txn ∈ s.transactions ∧ txn.service.id = id := by
  rcases hp : s.pending with - | slot
  · rw [transaction_of_pending_none hp] at h
    refine ⟨List.mem_append_right _ (Table.mem_values.mpr ⟨id, h⟩), hc.keyed h⟩
  · rw [transaction_of_pending hp] at h
    split_ifs at h with hid
    obtain rfl := Option.some.inj h
    exact ⟨by simp [transactions, hp], hid⟩

/-- The id of a transaction leads to it. -/
theorem Consistent.transaction_of_mem (hc : s.Consistent correlated generation)
    {txn : PendingRegistration} (h : txn ∈ s.transactions) :
    s.transaction txn.service.id = some txn := by
  rcases hp : s.pending with - | slot
  · rw [transaction_of_pending_none hp]
    obtain ⟨k, hk⟩ := Table.mem_values.mp (by simpa [transactions, hp] using h)
    rwa [hc.keyed hk]
  · rcases hc.modes with ⟨-, -, hempty⟩ | ⟨-, hnone, -⟩
    · have hmem : txn = slot := by
        simpa [transactions, hp, hempty, Table.values] using h
      rw [transaction_of_pending hp, hmem, if_pos rfl]
    · rw [hnone] at hp
      cases hp

/-! ### `begin` -/

/-- A Service that is no duplicate has its id free. -/
theorem Consistent.live_eq_none_of_not_duplicate (hc : s.Consistent correlated generation)
    {service : ClientService} (h : s.duplicate service = false) : s.live service.id = none := by
  unfold live
  rcases ht : s.transaction service.id with - | txn
  · rfl
  · obtain ⟨hmem, hid⟩ := hc.transaction_mem ht
    have hany := List.any_eq_false.mp h txn.service
      (List.mem_append_right _ (List.mem_map_of_mem hmem))
    simp [hid] at hany

theorem Consistent.enrolled_eq_none_of_not_duplicate (hc : s.Consistent correlated generation)
    {service : ClientService} (h : s.duplicate service = false) :
    s.enrolled service.id = none := by
  unfold enrolled
  rcases ha : s.active.lookup service.id with - | other
  · rfl
  · obtain ⟨hid, hmem⟩ := hc.desired ha
    have hany := List.any_eq_false.mp h other (List.mem_append_left _ hmem)
    simp [hid] at hany

theorem dead_erase (id : ServiceId) :
    ({ s with abandoned := s.abandoned.erase id } : ServiceState).dead = s.dead \ {id} := by
  ext k
  simp only [mem_dead, Table.lookup_erase_eq, Set.mem_sdiff, Set.mem_singleton_iff]
  split_ifs with hk <;> simp [hk]

theorem Consistent.erase_abandoned (hc : s.Consistent correlated generation) (id : ServiceId) :
    ({ s with abandoned := s.abandoned.erase id } : ServiceState).Consistent
      correlated generation where
  serial := hc.serial
  bounded := hc.bounded
  keyed := hc.keyed
  stamped := hc.stamped
  tombstoned {k g} h := by
    dsimp only at h
    rw [Table.lookup_erase_eq] at h
    split_ifs at h
    exact hc.tombstoned h
  desired := hc.desired

/-- **An accepted `begin`** makes the request live under a free id. -/
theorem begin_ok (hc : s.Consistent correlated generation) {service : ClientService}
    {reply : CallerId} (h : s.begin service generation reply = (t, .ok ())) :
    s.duplicate service = false ∧ t.Consistent correlated generation ∧
    t.live = Function.update s.live service.id (some ⟨service.registration, some reply⟩) ∧
    t.dead = s.dead \ {service.id} ∧ t.active = s.active ∧ t.mode = s.mode ∧
    (correlated = false → ∀ k, s.live k = none) := by
  unfold begin at h
  split_ifs at h with hdup
  · cases h
  have hdup' : s.duplicate service = false := by simpa using hdup
  have he := hc.erase_abandoned service.id
  have hd := dead_erase (s := s) service.id
  dsimp only at h
  rcases hc.modes with ⟨rfl, hmode, hempty⟩ | ⟨rfl, hnone, n, hmode⟩
  · -- serial: the slot was free, and it was the only place
    rw [hmode] at h
    dsimp only at h
    split_ifs at h with hslot
    · cases h
    obtain ⟨rfl, -⟩ := Prod.mk.inj h
    have hnone : s.pending = none := by simpa using hslot
    have hfree : ∀ k, s.live k = none := by
      intro k
      rw [live, transaction_of_pending_none hnone, hempty, AList.lookup_empty]
      rfl
    refine ⟨hdup', ⟨fun _ => ⟨rfl, hempty⟩, by simp, he.keyed, ?_, he.tombstoned, he.desired⟩,
      ?_, hd, rfl, hmode.symm, fun _ => hfree⟩
    · simp [transactions, hempty, Table.values]
    · funext k
      rw [Function.update_apply, hfree k]
      simp only [live, transaction, eq_comm (a := k)]
      split_ifs <;> rfl
  · -- correlated: the transaction joins the table
    rw [hmode] at h
    dsimp only at h
    split_ifs at h with hfull
    · cases h
    obtain ⟨rfl, -⟩ := Prod.mk.inj h
    refine ⟨hdup', ⟨by simp, fun _ => ⟨hnone, n, rfl⟩, ?_, ?_, he.tombstoned, he.desired⟩,
      ?_, hd, rfl, hmode.symm, by simp⟩
    · intro k txn hk
      dsimp only at hk
      rw [Table.lookup_insert_eq] at hk
      split_ifs at hk with heq
      · obtain rfl := Option.some.inj hk
        exact heq.symm
      · exact hc.keyed hk
    · intro txn hmem
      simp only [transactions, hnone, Option.toList_none, List.nil_append,
        Table.mem_values, Table.lookup_insert_eq] at hmem
      obtain ⟨k, hk⟩ := hmem
      split_ifs at hk
      · obtain rfl := Option.some.inj hk
        exact ⟨rfl, rfl⟩
      · exact hc.stamped txn (List.mem_append_right _ (Table.mem_values.mpr ⟨k, hk⟩))
    · funext k
      simp only [live, transaction, hnone, Table.lookup_insert_eq, Function.update_apply]
      split_ifs <;> rfl

/-! ### Deadlines -/

/-- Arming a deadline changes neither what is live nor anything else. -/
theorem armDeadline_spec (hc : s.Consistent correlated generation) (id : ServiceId)
    (deadline : Instant) :
    (s.armDeadline id deadline).Consistent correlated generation ∧
    (s.armDeadline id deadline).live = s.live ∧ (s.armDeadline id deadline).dead = s.dead ∧
    (s.armDeadline id deadline).active = s.active := by
  rcases hc.modes with ⟨rfl, hmode, hempty⟩ | ⟨rfl, hnone, n, hmode⟩
  · have harm : s.armDeadline id deadline =
        { s with pending := s.pending.map fun txn => { txn with deadline := some deadline } } := by
      rw [armDeadline, hmode]
    rw [harm]
    refine ⟨⟨fun _ => ⟨hmode, hempty⟩, by simp, hc.keyed, ?_, hc.tombstoned, hc.desired⟩,
      ?_, rfl, rfl⟩
    · intro txn hmem
      simp only [transactions, hempty, Table.values, List.mem_append, Option.mem_toList,
        Option.map_eq_some_iff] at hmem
      obtain ⟨slot, hslot, rfl⟩ : ∃ slot, s.pending = some slot ∧
          { slot with deadline := some deadline } = txn := by simpa using hmem
      exact hc.stamped slot (by simp [transactions, hslot])
    · funext k
      rcases hp : s.pending with - | slot
      · simp [live, transaction, hp]
      · simp only [live, transaction, hp, Option.map_some]
        split_ifs <;> rfl
  · rcases ht : s.inFlight.lookup id with - | txn
    · have harm : s.armDeadline id deadline = s := by rw [armDeadline, hmode]; simp only [ht]
      rw [harm]
      exact ⟨hc, rfl, rfl, rfl⟩
    · have harm : s.armDeadline id deadline = { s with
          inFlight := s.inFlight.insert id { txn with deadline := some deadline } } := by
        rw [armDeadline, hmode]
        simp only [ht]
      rw [harm]
      refine ⟨⟨by simp, fun _ => ⟨hnone, n, hmode⟩, ?_, ?_, hc.tombstoned, hc.desired⟩,
        ?_, rfl, rfl⟩
      · intro k txn' hk
        dsimp only at hk
        rw [Table.lookup_insert_eq] at hk
        split_ifs at hk with heq
        · obtain rfl := Option.some.inj hk
          exact (hc.keyed ht).trans heq.symm
        · exact hc.keyed hk
      · intro txn' hmem
        simp only [transactions, hnone, Option.toList_none, List.nil_append, Table.mem_values,
          Table.lookup_insert_eq] at hmem
        obtain ⟨k, hk⟩ := hmem
        split_ifs at hk
        · obtain rfl := Option.some.inj hk
          exact hc.stamped txn (List.mem_append_right _ (Table.mem_values.mpr ⟨id, ht⟩))
        · exact hc.stamped txn' (List.mem_append_right _ (Table.mem_values.mpr ⟨k, hk⟩))
      · funext k
        simp only [live, transaction, hnone, Table.lookup_insert_eq]
        split_ifs with heq
        · rw [heq, ht]
          rfl
        · rfl

/-- The ids whose transaction is overdue. -/
def overdueIds (s : ServiceState) (now : Instant) : Set ServiceId :=
  {id | ∃ txn, s.transaction id = some txn ∧ txn.overdue now = true}

theorem mem_overdueIds {now : Instant} :
    id ∈ s.overdueIds now ↔ ∃ txn, s.transaction id = some txn ∧ txn.overdue now = true :=
  Iff.rfl

/-- **A sweep in the correlated mode** drops the overdue transactions, and
leaves no tombstone for them. -/
theorem expireOverdue_correlated (hc : s.Consistent true generation) (now : Instant)
    {answers : List Answer} {x : Expiry} (h : s.expireOverdue now = (t, answers, x)) :
    x ≠ .legacy ∧ t.Consistent true generation ∧
    (∀ k, (k ∈ s.overdueIds now → t.live k = none) ∧
      (k ∉ s.overdueIds now → t.live k = s.live k)) ∧
    t.dead = s.dead ∧ t.active = s.active := by
  obtain ⟨hnone, n, hmode⟩ := hc.bounded rfl
  unfold expireOverdue at h
  dsimp only at h
  rw [hnone] at h
  obtain ⟨rfl, hx⟩ := Prod.mk.inj h
  have hlook (k : ServiceId) : (s.inFlight.retain fun _ txn => !txn.overdue now).lookup k
      = (s.inFlight.lookup k).filter fun txn => !txn.overdue now := Table.lookup_retain _ _ _
  refine ⟨?_, ⟨by simp, fun _ => ⟨rfl, n, hmode⟩, ?_, ?_, hc.tombstoned, hc.desired⟩, ?_, rfl, rfl⟩
  · rintro rfl
    have hx' := (Prod.mk.inj hx).2
    split_ifs at hx'
  · intro k txn hk
    dsimp only at hk
    rw [hlook, Option.filter_eq_some_iff] at hk
    exact hc.keyed hk.1
  · intro txn hmem
    simp only [transactions, Option.toList_none, List.nil_append, Table.mem_values, hlook,
      Option.filter_eq_some_iff] at hmem
    obtain ⟨k, hk, -⟩ := hmem
    exact hc.stamped txn (List.mem_append_right _ (Table.mem_values.mpr ⟨k, hk⟩))
  · intro k
    simp only [live, transaction, hnone, hlook, mem_overdueIds]
    rcases s.inFlight.lookup k with - | txn
    · simp
    · by_cases ho : txn.overdue now = true <;> simp [Option.filter, ho]

/-- A sweep in the serial mode ends the Session or changes nothing. -/
theorem expireOverdue_serial (hc : s.Consistent false generation) (now : Instant)
    {answers : List Answer} {x : Expiry} (h : s.expireOverdue now = (t, answers, x))
    (hx : x ≠ .legacy) : t = s ∧ answers = [] := by
  obtain ⟨hmode, hempty⟩ := hc.serial rfl
  have hretain : s.inFlight.retain (fun _ txn => !txn.overdue now) = s.inFlight := by
    rw [hempty]
    rfl
  have hvalues : s.inFlight.values = [] := by
    rw [hempty]
    rfl
  unfold expireOverdue at h
  dsimp only at h
  rw [hretain, hvalues, List.filter_nil, List.flatMap_nil] at h
  split at h
  · split_ifs at h with hoverdue hremoved
    · exact absurd (Prod.mk.inj (Prod.mk.inj h).2).2.symm hx
    · simp at hremoved
    · exact ⟨(Prod.mk.inj h).1.symm, (Prod.mk.inj (Prod.mk.inj h).2).1.symm⟩
  · exact ⟨(Prod.mk.inj h).1.symm, (Prod.mk.inj (Prod.mk.inj h).2).1.symm⟩

/-! ### Responses -/

/-- `t` is `s` without the transaction of `id`. -/
structure Taken (s : ServiceState) (id : ServiceId) (t : ServiceState) : Prop where
  live : t.live = Function.update s.live id none
  dead : t.dead = s.dead
  active : t.active = s.active
  desired : t.desired = s.desired

theorem Consistent.takeTransaction_found (hc : s.Consistent correlated generation)
    {txn : PendingRegistration} {home : TransactionHome}
    (h : s.takeTransaction id = (t, .found txn home)) :
    s.transaction id = some txn ∧ t.Consistent correlated generation ∧ Taken s id t := by
  unfold takeTransaction at h
  rcases hp : s.pending with - | slot
  · simp only [hp] at h
    split at h
    · rename_i txn' hlook
      obtain ⟨rfl, hfound⟩ := Prod.mk.inj h
      cases hfound
      refine ⟨by rw [transaction_of_pending_none hp, hlook], ⟨?_, ?_, ?_, ?_, hc.tombstoned,
        hc.desired⟩, ⟨?_, rfl, rfl, rfl⟩⟩
      · intro hser
        rw [(hc.serial hser).2, AList.lookup_empty] at hlook
        cases hlook
      · exact fun hcor => ⟨rfl, (hc.bounded hcor).2⟩
      · intro k txn hk
        dsimp only at hk
        rw [Table.lookup_erase_eq] at hk
        split_ifs at hk
        exact hc.keyed hk
      · intro txn hmem
        simp only [transactions, Option.toList_none, List.nil_append, Table.mem_values,
          Table.lookup_erase_eq] at hmem
        obtain ⟨k, hk⟩ := hmem
        split_ifs at hk
        exact hc.stamped txn (List.mem_append_right _ (Table.mem_values.mpr ⟨k, hk⟩))
      · funext k
        simp only [ServiceState.live, transaction, hp, Table.lookup_erase_eq,
          Function.update_apply]
        split_ifs <;> rfl
    · cases (Prod.mk.inj h).2
  · simp only [hp] at h
    split_ifs at h with hid
    · obtain ⟨rfl, hfound⟩ := Prod.mk.inj h
      cases hfound
      obtain ⟨rfl, hmode, hempty⟩ : correlated = false ∧ _ := by
        rcases hc.modes with hser | ⟨-, hnone, -⟩
        · exact hser
        · rw [hnone] at hp
          cases hp
      refine ⟨by rw [transaction_of_pending hp, if_pos hid], ⟨fun _ => ⟨hmode, hempty⟩, by simp,
        hc.keyed, by simp [transactions, hempty, Table.values], hc.tombstoned, hc.desired⟩,
        ⟨?_, rfl, rfl, rfl⟩⟩
      funext k
      simp only [ServiceState.live, transaction, hp, hempty, AList.lookup_empty,
        Function.update_apply]
      split_ifs with hk hslot
      · rfl
      · exact absurd (hslot.symm.trans hid) hk
      · rfl
    · cases (Prod.mk.inj h).2

/-- A response that finds no transaction leaves the transactions alone. -/
theorem takeTransaction_not_found {take : TransactionTake}
    (h : s.takeTransaction id = (t, take)) (htake : ∀ txn home, take ≠ .found txn home) :
    t = s ∧ s.transaction id = none := by
  unfold takeTransaction at h
  rcases hp : s.pending with - | slot
  · simp only [hp] at h
    split at h
    · exact absurd (Prod.mk.inj h).2.symm (htake _ _)
    · rename_i hlook
      obtain ⟨rfl, -⟩ := Prod.mk.inj h
      exact ⟨rfl, by rw [transaction_of_pending_none hp, hlook]⟩
  · simp only [hp] at h
    split_ifs at h with hid
    · exact absurd (Prod.mk.inj h).2.symm (htake _ _)
    · obtain ⟨rfl, -⟩ := Prod.mk.inj h
      exact ⟨rfl, by rw [transaction_of_pending hp, if_neg hid]⟩

/-- **What an acknowledgement finds**: its transaction, which it commits unless
the caller is gone; else a tombstone; else nothing. -/
theorem Consistent.takeAck_cases (hc : s.Consistent correlated generation)
    {closed : CallerId → Bool} {d : AckDisposition}
    (h : s.takeAck id generation closed = (t, d)) :
    (∃ txn caller, s.transaction id = some txn ∧ txn.reply = some caller ∧
      t.Consistent correlated generation ∧ Taken s id t ∧
      (d = .commit txn.service (some caller) ∨ d = .abandoned)) ∨
    (s.transaction id = none ∧ id ∈ s.dead ∧ d = .abandoned ∧
      t = { s with abandoned := s.abandoned.erase id }) ∨
    (s.transaction id = none ∧ id ∉ s.dead ∧ d = .unexpected) := by
  unfold takeAck at h
  rcases ht : s.takeTransaction id with ⟨u, take⟩
  rw [ht] at h
  cases take with
  | found txn home =>
      obtain ⟨htxn, hu, htaken⟩ := hc.takeTransaction_found ht
      obtain ⟨hgen, hreply⟩ := hc.stamped txn (hc.transaction_mem htxn).1
      obtain ⟨caller, hcaller⟩ := Option.isSome_iff_exists.mp hreply
      dsimp only at h
      rw [if_neg (by simpa using hgen), hcaller] at h
      refine .inl ⟨txn, caller, htxn, hcaller, ?_⟩
      split_ifs at h <;> obtain ⟨rfl, rfl⟩ := Prod.mk.inj h
      · exact ⟨hu, htaken, .inr rfl⟩
      · exact ⟨hu, htaken, .inl rfl⟩
  | mismatched | missing =>
      obtain ⟨rfl, hnone⟩ := takeTransaction_not_found ht (by simp)
      dsimp only [takeTombstone] at h
      rcases hlook : u.abandoned.lookup id with - | g
      · rw [hlook] at h
        obtain ⟨rfl, rfl⟩ := Prod.mk.inj h
        exact .inr (.inr ⟨hnone, by rw [mem_dead, hlook]; simp, rfl⟩)
      · rw [hlook] at h
        dsimp only at h
        rw [if_pos (hc.tombstoned hlook)] at h
        obtain ⟨rfl, rfl⟩ := Prod.mk.inj h
        exact .inr (.inl ⟨hnone, by rw [mem_dead, hlook]; rfl, rfl, rfl⟩)

/-- **What a correlated refusal finds.** -/
theorem Consistent.takeReject_cases (hc : s.Consistent correlated generation)
    {d : RejectDisposition} (h : s.takeReject id generation = (t, d)) :
    (∃ txn caller, s.transaction id = some txn ∧ txn.reply = some caller ∧
      t.Consistent correlated generation ∧ Taken s id t ∧ d = .reject (some caller)) ∨
    (s.transaction id = none ∧ id ∈ s.dead ∧ d = .stale none ∧
      t = { s with abandoned := s.abandoned.erase id }) ∨
    (s.transaction id = none ∧ id ∉ s.dead ∧ d = .unknown) := by
  unfold takeReject at h
  rcases ht : s.takeTransaction id with ⟨u, take⟩
  rw [ht] at h
  cases take with
  | found txn home =>
      obtain ⟨htxn, hu, htaken⟩ := hc.takeTransaction_found ht
      obtain ⟨hgen, hreply⟩ := hc.stamped txn (hc.transaction_mem htxn).1
      obtain ⟨caller, hcaller⟩ := Option.isSome_iff_exists.mp hreply
      dsimp only at h
      rw [if_neg (by simpa using hgen), hcaller] at h
      obtain ⟨rfl, rfl⟩ := Prod.mk.inj h
      exact .inl ⟨txn, caller, htxn, hcaller, hu, htaken, rfl⟩
  | mismatched | missing =>
      obtain ⟨rfl, hnone⟩ := takeTransaction_not_found ht (by simp)
      dsimp only [takeTombstone] at h
      rcases hlook : u.abandoned.lookup id with - | g
      · rw [hlook] at h
        obtain ⟨rfl, rfl⟩ := Prod.mk.inj h
        exact .inr (.inr ⟨hnone, by rw [mem_dead, hlook]; simp, rfl⟩)
      · rw [hlook] at h
        obtain ⟨rfl, rfl⟩ := Prod.mk.inj h
        exact .inr (.inl ⟨hnone, by rw [mem_dead, hlook]; rfl, rfl, rfl⟩)

/-- **What a generic refusal finds**: the slot, whatever it holds. -/
theorem Consistent.reject_some (hc : s.Consistent correlated generation)
    {reply : Option CallerId} (h : s.reject = (t, some reply)) :
    ∃ txn caller, s.transaction txn.service.id = some txn ∧ txn.reply = some caller ∧
      reply = some caller ∧ correlated = false ∧ t.Consistent correlated generation ∧
      Taken s txn.service.id t := by
  unfold reject at h
  rcases hp : s.pending with - | txn
  · rw [hp] at h
    cases (Prod.mk.inj h).2
  · obtain ⟨rfl, hmode, hempty⟩ : correlated = false ∧ _ := by
      rcases hc.modes with hser | ⟨-, hnone, -⟩
      · exact hser
      · rw [hnone] at hp
        cases hp
    have hmem : txn ∈ s.transactions := by simp [transactions, hp]
    obtain ⟨caller, hcaller⟩ := Option.isSome_iff_exists.mp (hc.stamped txn hmem).2
    rw [hp, Option.map_some] at h
    obtain ⟨rfl, hreply⟩ := Prod.mk.inj h
    refine ⟨txn, caller, hc.transaction_of_mem hmem, hcaller,
      (Option.some.inj hreply).symm.trans hcaller, rfl,
      ⟨fun _ => ⟨hmode, hempty⟩, by simp, hc.keyed,
        by simp [transactions, hempty, Table.values], hc.tombstoned, hc.desired⟩,
      ⟨?_, rfl, rfl, rfl⟩⟩
    funext k
    simp only [ServiceState.live, transaction, hp, hempty, AList.lookup_empty,
      Function.update_apply]
    split_ifs with hk hslot
    · rfl
    · exact absurd hslot.symm hk
    · rfl

theorem reject_none (h : s.reject = (t, none)) : s.pending = none := by
  unfold reject at h
  rcases hp : s.pending with - | txn
  · rfl
  · rw [hp] at h
    cases (Prod.mk.inj h).2

theorem Consistent.commit (hc : s.Consistent correlated generation) (service : ClientService) :
    (s.commit service).Consistent correlated generation where
  serial := hc.serial
  bounded := hc.bounded
  keyed := hc.keyed
  stamped := hc.stamped
  tombstoned := hc.tombstoned
  desired {k other} h := by
    simp only [ServiceState.commit, Table.lookup_insert_eq] at h
    split_ifs at h with hk
    · obtain rfl := Option.some.inj h
      exact ⟨hk.symm, List.mem_append_right _ (List.mem_singleton_self _)⟩
    · exact ⟨(hc.desired h).1, List.mem_append_left _ (hc.desired h).2⟩

theorem enrolled_commit (s : ServiceState) (service : ClientService) :
    (s.commit service).enrolled
      = Function.update s.enrolled service.id (some service.registration) := by
  funext k
  simp only [enrolled, ServiceState.commit, Table.lookup_insert_eq, Function.update_apply]
  split_ifs <;> rfl

/-! ### Giving up -/

/-- A new tombstone joins the others, or replaces them when there are 256. -/
theorem dead_tombstone (s : ServiceState) (id : ServiceId) (g : Nat) :
    (s.tombstone id g).dead = insert id (if 256 ≤ s.abandoned.size then ∅ else s.dead) := by
  ext k
  simp only [mem_dead, tombstone, Table.lookup_insert_eq, Set.mem_insert_iff]
  split_ifs with hk hfull hfull <;> simp [hk, mem_dead]

theorem Consistent.tombstone (hc : s.Consistent correlated generation) (id : ServiceId) :
    (s.tombstone id generation).Consistent correlated generation where
  serial := hc.serial
  bounded := hc.bounded
  keyed := hc.keyed
  stamped := hc.stamped
  tombstoned {k g} h := by
    simp only [ServiceState.tombstone, Table.lookup_insert_eq] at h
    split_ifs at h
    · exact (Option.some.inj h).symm
    · simp at h
    · exact hc.tombstoned h
  desired := hc.desired

/-- Dropping a correlated transaction. -/
theorem Consistent.erase_inFlight (hc : s.Consistent correlated generation) (id : ServiceId)
    (hnone : s.pending = none) :
    ({ s with inFlight := s.inFlight.erase id } : ServiceState).Consistent correlated generation ∧
    Taken s id { s with inFlight := s.inFlight.erase id } := by
  refine ⟨⟨?_, fun hcor => ⟨hnone, (hc.bounded hcor).2⟩, ?_, ?_, hc.tombstoned, hc.desired⟩,
    ⟨?_, rfl, rfl, rfl⟩⟩
  · intro hser
    refine ⟨(hc.serial hser).1, ?_⟩
    dsimp only
    rw [(hc.serial hser).2]
    rfl
  · intro k txn hk
    dsimp only at hk
    rw [Table.lookup_erase_eq] at hk
    split_ifs at hk
    exact hc.keyed hk
  · intro txn hmem
    simp only [transactions, hnone, Option.toList_none, List.nil_append, Table.mem_values,
      Table.lookup_erase_eq] at hmem
    obtain ⟨k, hk⟩ := hmem
    split_ifs at hk
    exact hc.stamped txn (List.mem_append_right _ (Table.mem_values.mpr ⟨k, hk⟩))
  · funext k
    simp only [ServiceState.live, transaction, hnone, Table.lookup_erase_eq, Function.update_apply]
    split_ifs <;> rfl

/-- **`abandon`** replaces a correlated transaction by its tombstone. -/
theorem Consistent.abandon (hc : s.Consistent true generation) {answers : List Answer}
    (hlive : (s.live id).isSome) (h : s.abandon id = (t, answers)) :
    t.Consistent true generation ∧ t.live = Function.update s.live id none ∧
    t.dead ⊆ insert id s.dead ∧ t.active = s.active := by
  obtain ⟨hnone, n, hmode⟩ := hc.bounded rfl
  rw [live, transaction_of_pending_none hnone, Option.isSome_map] at hlive
  obtain ⟨txn, htxn⟩ := Option.isSome_iff_exists.mp hlive
  have hgen := (hc.stamped txn (List.mem_append_right _ (Table.mem_values.mpr ⟨id, htxn⟩))).1
  rw [ServiceState.abandon, htxn] at h
  obtain ⟨rfl, -⟩ := Prod.mk.inj h
  obtain ⟨he, htaken⟩ := hc.erase_inFlight id hnone
  rw [hgen]
  refine ⟨he.tombstone id, htaken.live, ?_, rfl⟩
  rw [dead_tombstone]
  refine Set.insert_subset_insert ?_
  split_ifs
  · exact Set.empty_subset _
  · exact le_rfl

/-- `t` is `s` after the transaction of `id` was cancelled.  Only the serial
mode leaves a tombstone. -/
structure Cancelled (s : ServiceState) (correlated : Bool) (generation : Nat) (id : ServiceId)
    (t : ServiceState) : Prop where
  consistent : t.Consistent correlated generation
  live : t.live = Function.update s.live id none
  active : t.active = s.active
  dead : t.dead = if correlated = false ∧ (s.live id).isSome then
      insert id (if 256 ≤ s.abandoned.size then ∅ else s.dead)
    else s.dead

/-- Nothing is live under the id: there is nothing to cancel. -/
theorem Consistent.cancelled_of_idle (hc : s.Consistent correlated generation)
    (hl : s.live id = none) : Cancelled s correlated generation id s where
  consistent := hc
  live := by rw [← hl, Function.update_eq_self]
  active := rfl
  dead := by simp [hl]

/-- **What `unregister` does to the transaction of the id.** -/
theorem Consistent.cancel (hc : s.Consistent correlated generation) (id : ServiceId) :
    Cancelled s correlated generation id ((s.cancelPending id).1.cancelInFlight id).1 := by
  rcases hc.modes with ⟨rfl, hmode, hempty⟩ | ⟨rfl, hnone, n, hmode⟩
  · -- serial: only the slot matters
    have hdrop : ∀ u : ServiceState, u.inFlight = ∅ → (u.cancelInFlight id).1 = u := by
      intro u hu
      simp [cancelInFlight, hu]
    rcases hp : s.pending with - | txn
    · have hstate : ((s.cancelPending id).1.cancelInFlight id).1 = s := by
        rw [show (s.cancelPending id).1 = s by simp [cancelPending, hp], hdrop s hempty]
      rw [hstate]
      refine hc.cancelled_of_idle ?_
      rw [live, transaction_of_pending_none hp, hempty, AList.lookup_empty]
      rfl
    · by_cases hid : txn.service.id = id
      · have hmem : txn ∈ s.transactions := by simp [transactions, hp]
        have htxn := hc.transaction_of_mem hmem
        rw [hid] at htxn
        have hslot : s.takeTransaction id = ({ s with pending := none }, .found txn .legacy) := by
          simp [takeTransaction, hp, hid]
        obtain ⟨-, hcons, htaken⟩ := hc.takeTransaction_found hslot
        have hstate : ((s.cancelPending id).1.cancelInFlight id).1
            = ({ s with pending := none }).tombstone id generation := by
          rw [show (s.cancelPending id).1
              = ({ s with pending := none }).tombstone id txn.generation by
            simp [cancelPending, hp, hid]]
          refine (hdrop (ServiceState.tombstone { s with pending := none } id txn.generation)
            hempty).trans ?_
          rw [(hc.stamped txn hmem).1]
        rw [hstate]
        refine ⟨hcons.tombstone id, htaken.live, rfl, ?_⟩
        rw [dead_tombstone, live, htxn]
        rfl
      · have hstate : ((s.cancelPending id).1.cancelInFlight id).1 = s := by
          rw [show (s.cancelPending id).1 = s by simp [cancelPending, hp, hid], hdrop s hempty]
        rw [hstate]
        refine hc.cancelled_of_idle ?_
        rw [live, transaction_of_pending hp, if_neg hid]
        rfl
  · -- correlated: the slot is empty
    have hcancel : (s.cancelPending id).1 = s := by simp [cancelPending, hnone]
    rw [hcancel]
    rcases htxn : s.inFlight.lookup id with - | txn
    · rw [show (s.cancelInFlight id).1 = s by simp [cancelInFlight, htxn]]
      refine hc.cancelled_of_idle ?_
      rw [live, transaction_of_pending_none hnone, htxn]
      rfl
    · obtain ⟨he, htaken⟩ := hc.erase_inFlight id hnone
      rw [show (s.cancelInFlight id).1 = { s with inFlight := s.inFlight.erase id } by
        simp [cancelInFlight, htxn]]
      exact ⟨he, htaken.live, rfl, by simpa using htaken.dead⟩

/-- **What `unregister` does.** -/
theorem Consistent.unregister (hc : s.Consistent correlated generation) {answers : List Answer}
    {present : Bool} (h : s.unregister id = (t, answers, present)) :
    t.Consistent correlated generation ∧ t.live = Function.update s.live id none ∧
    t.enrolled = Function.update s.enrolled id none ∧ present = (s.enrolled id).isSome ∧
    t.dead = if correlated = false ∧ (s.live id).isSome then
        insert id (if 256 ≤ s.abandoned.size then ∅ else s.dead)
      else s.dead := by
  have hcan := hc.cancel id
  unfold ServiceState.unregister at h
  dsimp only at h
  obtain ⟨rfl, h'⟩ := Prod.mk.inj h
  obtain ⟨-, rfl⟩ := Prod.mk.inj h'
  refine ⟨⟨hcan.consistent.serial, hcan.consistent.bounded, hcan.consistent.keyed,
    hcan.consistent.stamped, hcan.consistent.tombstoned, ?_⟩, hcan.live, ?_, ?_, hcan.dead⟩
  · intro k service hk
    dsimp only at hk ⊢
    rw [Table.lookup_erase_eq] at hk
    split_ifs at hk with heq
    obtain ⟨hid, hmem⟩ := hcan.consistent.desired hk
    exact ⟨hid, List.mem_filter.mpr ⟨hmem, by simpa [hid] using heq⟩⟩
  · funext k
    simp only [enrolled, hcan.active, Table.lookup_erase_eq, Function.update_apply]
    split_ifs <;> rfl
  · rw [hcan.active, enrolled, Option.isSome_map]

end ServiceState

/-! ### Answers that report a failure -/

/-- Every caller among the answers is told of a failure. -/
def Failures (answers : List Answer) : Prop := ∀ a ∈ answers, ∃ e, a.2 = .error e

theorem Failures.nil : Failures [] := by simp [Failures]

theorem Failures.answer (e : TunnelError) (reply : Option CallerId) :
    Failures (answer (.error e) reply) := by
  cases reply <;> simp [Failures, Eggtunnel.answer]

theorem Failures.append {l l' : List Answer} (h : Failures l) (h' : Failures l') :
    Failures (l ++ l') := by
  intro a ha
  rcases List.mem_append.mp ha with ha | ha
  · exact h a ha
  · exact h' a ha

theorem Failures.flatMap (l : List PendingRegistration) (e : TunnelError) :
    Failures (l.flatMap fun txn => Eggtunnel.answer (.error e) txn.reply) := by
  intro a ha
  obtain ⟨txn, -, ha⟩ := List.mem_flatMap.mp ha
  exact Failures.answer e txn.reply a ha

namespace ServiceState

theorem failures_expireOverdue (s : ServiceState) (now : Instant) :
    Failures (s.expireOverdue now).2.1 := by
  unfold expireOverdue
  dsimp only
  split
  · split_ifs
    · exact (Failures.flatMap _ _).append (Failures.answer _ _)
    · exact Failures.flatMap _ _
    · exact Failures.flatMap _ _
  · exact Failures.flatMap _ _

theorem failures_abandon (s : ServiceState) (id : ServiceId) : Failures (s.abandon id).2 := by
  unfold abandon
  split
  · exact Failures.answer _ _
  · exact Failures.nil

theorem failures_cancelPending (s : ServiceState) (id : ServiceId) :
    Failures (s.cancelPending id).2 := by
  unfold cancelPending
  split
  · split_ifs
    · exact Failures.answer _ _
    · exact Failures.nil
  · exact Failures.nil

theorem failures_cancelInFlight (s : ServiceState) (id : ServiceId) :
    Failures (s.cancelInFlight id).2 := by
  unfold cancelInFlight
  split
  · exact Failures.answer _ _
  · exact Failures.nil

theorem failures_unregister (s : ServiceState) (id : ServiceId) :
    Failures (s.unregister id).2.1 :=
  (s.failures_cancelPending id).append ((s.cancelPending id).1.failures_cancelInFlight id)

end ServiceState

end Eggtunnel
