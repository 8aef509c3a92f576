/-
Eggtunnel/Operations.lean

The operations that `run_session` and `drive` perform on a `ServiceState`, and
its representation invariant.

An `Operation` is one call, with the answers the caller of the operation gives
on its result: `begin` stands behind the capacity check, and `take_ack` is
followed by `commit` where it says so.  Almost every operation only gives up
part of what the state holds (`Narrows`), and that keeps the invariant
(`Represented.narrows`); the three that do more are `set_mode`, an accepted
`begin`, and a committed acknowledgement.
-/
import Eggtunnel.ServiceState

namespace Eggtunnel

/-! ### Operations -/

/-- The calls that change a `ServiceState`. -/
inductive Operation
  /-- `set_mode`, at the start of a Session -/
  | setMode (mode : RegistrationMode)
  | clearActive
  | activateInitial
  /-- `begin` behind the capacity check; `closed` is `reply.is_closed()` -/
  | begin (service : ClientService) (generation : Nat) (reply : CallerId) (closed : Bool)
      (limit : Nat)
  /-- a registration without a Session, which never reaches the state -/
  | decline (reply : CallerId)
  | armDeadline (id : ServiceId) (deadline : Instant)
  /-- the reply of the slot is taken after its write timed out -/
  | loseReply
  | abandon (id : ServiceId)
  /-- `take_ack`, and `commit` of what it found -/
  | acknowledge (id : ServiceId) (generation : Nat) (closed : CallerId → Bool)
      (bind : EffectiveBind)
  | takeReject (id : ServiceId) (generation : Nat) (error : TunnelError)
  | reject (error : TunnelError)
  | expireOverdue (now : Instant)
  | unregister (id : ServiceId)
  | finishPending (error : TunnelError)

/-- The state after an operation, and the answers given with it. -/
def Operation.apply (s : ServiceState) : Operation → ServiceState × List Answer
  | .setMode mode => s.setMode mode
  | .clearActive => (s.clearActive, [])
  | .activateInitial => (s.activateInitial, [])
  | .begin service generation reply closed limit =>
      if limit ≤ s.desired.length + s.unacknowledged then
        (s, [(reply, .error .resourceExhausted)])
      else if closed then (s, [])
      else
        match s.begin service generation reply with
        | (s, .error e) => (s, [(reply, .error e)])
        | (s, .ok ()) => (s, [])
  | .decline reply => (s, [(reply, .error .disconnected)])
  | .armDeadline id deadline => (s.armDeadline id deadline, [])
  | .loseReply =>
      ({ s with pending := s.pending.map fun txn => { txn with reply := none } },
        answer (.error .timeout) (s.pending.bind (·.reply)))
  | .abandon id => s.abandon id
  | .acknowledge id generation closed bind =>
      match s.takeAck id generation closed with
      | (s, .commit service reply) => (s.commit service, answer (.ok bind) reply)
      | (s, .stale reply) => (s, answer (.error .disconnected) reply)
      | (s, .abandoned) => (s, [])
      | (s, .unexpected) => (s, [])
  | .takeReject id generation error =>
      match s.takeReject id generation with
      | (s, .reject reply) => (s, answer (.error error) reply)
      | (s, .stale reply) => (s, answer (.error .disconnected) reply)
      | (s, .unknown) => (s, [])
  | .reject error =>
      match s.reject with
      | (s, some reply) => (s, answer (.error error) reply)
      | (s, none) => (s, [])
  | .expireOverdue now => ((s.expireOverdue now).1, (s.expireOverdue now).2.1)
  | .unregister id => ((s.unregister id).1, (s.unregister id).2.1)
  | .finishPending error => s.finishPending error

/-- What an operation is remembered for: an accepted `begin`, a committed
acknowledgement, or an `unregister`. -/
inductive Record
  | begun (caller : CallerId) (service : ClientService)
  | committed (caller : Option CallerId) (service : ClientService)
  | unregistered (id : ServiceId)
  deriving DecidableEq

/-- What a call means for its caller. -/
def Operation.record (s : ServiceState) : Operation → List Record
  | .begin service generation reply closed limit =>
      if limit ≤ s.desired.length + s.unacknowledged then []
      else if closed then []
      else
        match (s.begin service generation reply).2 with
        | .ok () => [.begun reply service]
        | .error _ => []
  | .acknowledge id generation closed _ =>
      match (s.takeAck id generation closed).2 with
      | .commit service reply => [.committed reply service]
      | _ => []
  | .unregister id => [.unregistered id]
  | _ => []

/-- What a record means for the desired Services. -/
def Record.amend (desired : List ClientService) : Record → List ClientService
  | .begun _ _ => desired
  | .committed _ service => desired ++ [service]
  | .unregistered id => desired.filter (·.id ≠ id)

/-- What a record means for the active Services. -/
def Record.amendActive (active : Table ServiceId ClientService) :
    Record → Table ServiceId ClientService
  | .begun _ _ => active
  | .committed _ service => active.insert service.id service
  | .unregistered id => active.erase id

namespace ServiceState

variable {s t u : ServiceState} {id : ServiceId} {limit : Nat}

/-! ### The invariant -/

/-- The Services whose id and name are taken. -/
def claimed (s : ServiceState) : List ClientService :=
  s.desired ++ s.transactions.map (·.service)

/-- What holds of a `ServiceState` at any time, in either mode. -/
structure Represented (limit : Nat) (s : ServiceState) : Prop where
  ids : (s.claimed.map (·.id)).Nodup
  names : (s.claimed.map (·.name)).Nodup
  keyed : ∀ id txn, s.inFlight.lookup id = some txn → txn.service.id = id
  serial : s.mode = .legacySerial → s.inFlight = ∅
  bounded : ∀ n, s.mode = .correlatedBounded n → s.pending = none ∧ s.inFlight.size ≤ max n 1
  tombstones : s.abandoned.size ≤ 256
  dead : ∀ id, (s.abandoned.lookup id).isSome → id ∉ s.claimed.map (·.id)
  active : ∀ id service, s.active.lookup id = some service → service.id = id ∧ service ∈ s.desired
  capacity : s.desired.length + s.unacknowledged ≤ limit

/-- A tombstoned Service is not active. -/
theorem Represented.not_active (hr : s.Represented limit) {id : ServiceId}
    (h : (s.abandoned.lookup id).isSome) : s.active.lookup id = none := by
  rcases ha : s.active.lookup id with - | service
  · rfl
  · obtain ⟨hid, hmem⟩ := hr.active id service ha
    refine absurd ?_ (hr.dead id h)
    rw [← hid]
    exact List.mem_map_of_mem (List.mem_append_left _ hmem)

theorem length_claimed (s : ServiceState) :
    s.claimed.length = s.desired.length + s.unacknowledged := by
  simp [claimed, transactions, unacknowledged, Table.values, Table.size]

theorem subperm_map {α β : Type} (f : α → β) {l l' : List α} (h : l.Subperm l') :
    (l.map f).Subperm (l'.map f) := by
  obtain ⟨m, hperm, hsub⟩ := h
  exact ⟨m.map f, hperm.map f, hsub.map f⟩

theorem nodup_of_subperm {α : Type} {l l' : List α} (h : l.Subperm l') (hn : l'.Nodup) :
    l.Nodup := by
  obtain ⟨m, hperm, hsub⟩ := h
  exact hperm.nodup_iff.mp (hn.sublist hsub)

/-- `t` is `s` with some of it given up.  Deadlines and replies may differ, and
tombstones may have been left for what was given up. -/
structure Narrows (s t : ServiceState) : Prop where
  claimed : t.claimed.Subperm s.claimed
  origin : ∀ txn ∈ t.transactions, ∃ txn' ∈ s.transactions, txn'.service = txn.service ∧
    txn'.generation = txn.generation ∧ ∀ caller, txn.reply = some caller → txn'.reply = some caller
  keyed : ∀ id txn, t.inFlight.lookup id = some txn →
    ∃ txn', s.inFlight.lookup id = some txn' ∧ txn'.service = txn.service
  size : t.inFlight.size ≤ s.inFlight.size
  pending : s.pending = none → t.pending = none
  mode : t.mode = s.mode
  tombstones : s.abandoned.size ≤ 256 → t.abandoned.size ≤ 256
  dead : ∀ id g, t.abandoned.lookup id = some g → s.abandoned.lookup id = some g ∨
    (id ∉ t.claimed.map (·.id) ∧ ∃ txn ∈ s.transactions, txn.generation = g)
  active : ∀ id service, t.active.lookup id = some service →
    s.active.lookup id = some service ∧ (service ∈ s.desired → service ∈ t.desired)

theorem Narrows.refl (s : ServiceState) : Narrows s s where
  claimed := List.Subperm.refl _
  origin txn h := ⟨txn, h, rfl, rfl, fun _ hr => hr⟩
  keyed _ txn h := ⟨txn, h, rfl⟩
  size := le_rfl
  pending h := h
  mode := rfl
  tombstones h := h
  dead _ _ h := .inl h
  active _ _ h := ⟨h, fun hmem => hmem⟩

/-- The tables of transactions alone have changed. -/
theorem Narrows.of_kept (hdesired : t.desired = s.desired) (hactive : t.active = s.active)
    (habandoned : t.abandoned = s.abandoned) (hmode : t.mode = s.mode)
    (claimed : t.claimed.Subperm s.claimed)
    (origin : ∀ txn ∈ t.transactions, ∃ txn' ∈ s.transactions, txn'.service = txn.service ∧
      txn'.generation = txn.generation ∧
      ∀ caller, txn.reply = some caller → txn'.reply = some caller)
    (keyed : ∀ id txn, t.inFlight.lookup id = some txn →
      ∃ txn', s.inFlight.lookup id = some txn' ∧ txn'.service = txn.service)
    (size : t.inFlight.size ≤ s.inFlight.size) (pending : s.pending = none → t.pending = none) :
    Narrows s t where
  claimed := claimed
  origin := origin
  keyed := keyed
  size := size
  pending := pending
  mode := hmode
  tombstones h := by rwa [habandoned]
  dead id g h := .inl (by rwa [habandoned] at h)
  active id service h := by
    rw [hactive] at h
    exact ⟨h, fun hmem => by rwa [hdesired]⟩

theorem Narrows.trans (h : Narrows s t) (h' : Narrows t u) : Narrows s u where
  claimed := h'.claimed.trans h.claimed
  origin txn hu := by
    obtain ⟨txn', ht, hserv, hgen, hreply⟩ := h'.origin txn hu
    obtain ⟨txn'', hs, hserv', hgen', hreply'⟩ := h.origin txn' ht
    exact ⟨txn'', hs, hserv'.trans hserv, hgen'.trans hgen, fun c hc => hreply' c (hreply c hc)⟩
  keyed id txn hu := by
    obtain ⟨txn', ht, hserv⟩ := h'.keyed id txn hu
    obtain ⟨txn'', hs, hserv'⟩ := h.keyed id txn' ht
    exact ⟨txn'', hs, hserv'.trans hserv⟩
  size := h'.size.trans h.size
  pending hs := h'.pending (h.pending hs)
  mode := h'.mode.trans h.mode
  tombstones hs := h'.tombstones (h.tombstones hs)
  dead id g hu := by
    rcases h'.dead id g hu with ht | ⟨hgone, txn, hmem, hgen⟩
    · refine (h.dead id g ht).imp_right fun ⟨hgone, htxn⟩ => ⟨fun hmem => hgone ?_, htxn⟩
      exact (subperm_map _ h'.claimed).subset hmem
    · obtain ⟨txn', hmem', -, hgen', -⟩ := h.origin txn hmem
      exact .inr ⟨hgone, txn', hmem', hgen'.trans hgen⟩
  active id service hu := by
    obtain ⟨ht, hkept⟩ := h'.active id service hu
    obtain ⟨hs, hkept'⟩ := h.active id service ht
    exact ⟨hs, fun hmem => hkept (hkept' hmem)⟩

/-- **Giving up part of the state keeps the invariant.** -/
theorem Represented.narrows (hr : s.Represented limit) (h : Narrows s t) :
    t.Represented limit where
  ids := nodup_of_subperm (subperm_map _ h.claimed) hr.ids
  names := nodup_of_subperm (subperm_map _ h.claimed) hr.names
  keyed id txn ht := by
    obtain ⟨txn', hs, hserv⟩ := h.keyed id txn ht
    rw [← hserv]
    exact hr.keyed id txn' hs
  serial hmode := by
    have hsize := h.size
    rw [hr.serial (h.mode ▸ hmode)] at hsize
    exact Table.size_eq_zero_iff.mp (Nat.le_zero.mp hsize)
  bounded n hmode := by
    obtain ⟨hnone, hroom⟩ := hr.bounded n (h.mode ▸ hmode)
    exact ⟨h.pending hnone, h.size.trans hroom⟩
  tombstones := h.tombstones hr.tombstones
  dead id ht := by
    obtain ⟨g, hg⟩ := Option.isSome_iff_exists.mp ht
    rcases h.dead id g hg with hs | hgone
    · refine fun hmem => hr.dead id ?_ ((subperm_map _ h.claimed).subset hmem)
      rw [hs]
      rfl
    · exact hgone.1
  active id service ht := by
    obtain ⟨hs, hkept⟩ := h.active id service ht
    obtain ⟨hid, hmem⟩ := hr.active id service hs
    exact ⟨hid, hkept hmem⟩
  capacity := by
    have hle := h.claimed.length_le
    rw [length_claimed, length_claimed] at hle
    exact hle.trans hr.capacity

/-! ### Operations that give something up -/

/-- The transaction of the slot, and the rest. -/
theorem claimed_of_pending {txn : PendingRegistration} (h : s.pending = some txn) :
    s.claimed.Perm (txn.service :: { s with pending := none }.claimed) := by
  unfold claimed transactions
  rw [h]
  exact List.perm_middle

/-- The transaction of an id in the table, and the rest. -/
theorem claimed_of_inFlight {txn : PendingRegistration} (h : s.inFlight.lookup id = some txn) :
    s.claimed.Perm (txn.service :: { s with inFlight := s.inFlight.erase id }.claimed) := by
  have hvalues := (Table.values_perm_erase h).map PendingRegistration.service
  unfold claimed transactions
  rw [List.map_append, List.map_append, ← List.append_assoc, ← List.append_assoc]
  exact (hvalues.append_left _).trans List.perm_middle

/-- Transactions of `t` that are transactions of `s`. -/
theorem origin_of_subset (h : t.transactions ⊆ s.transactions) :
    ∀ txn ∈ t.transactions, ∃ txn' ∈ s.transactions, txn'.service = txn.service ∧
      txn'.generation = txn.generation ∧
      ∀ caller, txn.reply = some caller → txn'.reply = some caller :=
  fun txn hmem => ⟨txn, h hmem, rfl, rfl, fun _ hr => hr⟩

theorem narrows_clearPending (s : ServiceState) : Narrows s { s with pending := none } := by
  refine .of_kept rfl rfl rfl rfl ?_ (origin_of_subset ?_) (fun _ txn h => ⟨txn, h, rfl⟩) le_rfl
    fun _ => rfl
  · rcases hp : s.pending with - | txn
    · exact List.Perm.subperm (by simp [claimed, transactions, hp])
    · exact (List.sublist_cons_self _ _).subperm.trans (claimed_of_pending hp).symm.subperm
  · exact fun txn h => List.mem_append_right _ h

theorem narrows_retain (s : ServiceState) (p : ServiceId → PendingRegistration → Bool) :
    Narrows s { s with inFlight := s.inFlight.retain p } := by
  have hsub : (s.inFlight.retain p).values.Sublist s.inFlight.values :=
    List.filter_sublist.map _
  have htxns := (List.Sublist.refl s.pending.toList).append hsub
  refine .of_kept rfl rfl rfl rfl ((htxns.map _).append_left s.desired).subperm
    (origin_of_subset htxns.subset) ?_ (Table.size_retain_le _ _) id
  intro id txn h
  dsimp only at h
  rw [Table.lookup_retain, Option.filter_eq_some_iff] at h
  exact ⟨txn, h.1, rfl⟩

theorem narrows_erase (s : ServiceState) (id : ServiceId) :
    Narrows s { s with inFlight := s.inFlight.erase id } := by
  rcases hlook : s.inFlight.lookup id with - | txn
  · rw [Table.erase_eq_self hlook]
    exact Narrows.refl s
  · have hsize := Table.size_erase hlook
    refine .of_kept rfl rfl rfl rfl ?_ (origin_of_subset ?_) ?_ (by dsimp only; omega) fun h => h
    · exact (List.sublist_cons_self _ _).subperm.trans (claimed_of_inFlight hlook).symm.subperm
    · refine List.append_subset.mpr ⟨List.subset_append_left _ _, fun other h => ?_⟩
      refine List.mem_append_right _ ((Table.values_perm_erase hlook).symm.subset ?_)
      exact List.mem_cons_of_mem _ h
    · intro k txn h
      dsimp only at h
      rw [Table.lookup_erase_eq] at h
      split_ifs at h
      exact ⟨txn, h, rfl⟩

theorem narrows_erase_abandoned (s : ServiceState) (id : ServiceId) :
    Narrows s { s with abandoned := s.abandoned.erase id } where
  claimed := List.Subperm.refl _
  origin := origin_of_subset (List.Subset.refl _)
  keyed _ txn h := ⟨txn, h, rfl⟩
  size := le_rfl
  pending h := h
  mode := rfl
  tombstones h := by
    rcases hk : s.abandoned.lookup id with - | g
    · rwa [Table.erase_eq_self hk]
    · have := Table.size_erase hk
      dsimp only
      omega
  dead k g h := by
    dsimp only at h
    rw [Table.lookup_erase_eq] at h
    split_ifs at h
    exact .inl h
  active _ _ h := ⟨h, fun hmem => hmem⟩

theorem size_tombstone (h : s.abandoned.size ≤ 256) (id : ServiceId) (g : Nat) :
    (s.tombstone id g).abandoned.size ≤ 256 := by
  unfold tombstone
  dsimp only
  have hsize (t : Table ServiceId Nat) (ht : t.size < 256) :
      Table.size (t.insert id g) ≤ 256 := by
    rcases hk : t.lookup id with - | g'
    · rw [Table.size_insert, Table.erase_eq_self hk]
      omega
    · have := Table.size_erase hk
      rw [Table.size_insert]
      omega
  split_ifs with hfull
  · exact hsize ∅ (by decide)
  · exact hsize s.abandoned (by omega)

theorem narrows_clearActive (s : ServiceState) : Narrows s s.clearActive :=
  { Narrows.refl s with
    active := fun _ _ h => by cases h }

theorem narrows_finishPending (s : ServiceState) (error : TunnelError) :
    Narrows s (s.finishPending error).1 where
  claimed := by
    refine List.Sublist.subperm ?_
    show (s.desired ++ []).Sublist (s.desired ++ _)
    exact (List.Sublist.refl _).append (List.nil_sublist _)
  origin _ h := by cases h
  keyed _ _ h := by cases h
  size := Nat.zero_le _
  pending _ := rfl
  mode := rfl
  tombstones _ := Nat.zero_le _
  dead _ _ h := by cases h
  active _ _ h := ⟨h, fun hmem => hmem⟩

/-- A change of the slot that keeps its Service. -/
theorem narrows_mapPending (s : ServiceState) {f : PendingRegistration → PendingRegistration}
    (hf : ∀ txn, (f txn).service = txn.service ∧ (f txn).generation = txn.generation ∧
      ∀ caller, (f txn).reply = some caller → txn.reply = some caller) :
    Narrows s { s with pending := s.pending.map f } := by
  refine .of_kept rfl rfl rfl rfl ?_ ?_ (fun _ txn h => ⟨txn, h, rfl⟩) le_rfl fun h => ?_
  · refine List.Perm.subperm ?_
    rcases hp : s.pending with - | txn <;> simp [claimed, transactions, hp, (hf _).1]
  · intro txn hmem
    rcases List.mem_append.mp hmem with hslot | htable
    · obtain ⟨txn', hp, rfl⟩ := Option.map_eq_some_iff.mp (Option.mem_toList.mp hslot)
      exact ⟨txn', List.mem_append_left _ (Option.mem_toList.mpr hp), (hf txn').1.symm,
        (hf txn').2.1.symm, (hf txn').2.2⟩
    · exact ⟨txn, List.mem_append_right _ htable, rfl, rfl, fun _ hr => hr⟩
  · rw [h]
    rfl

theorem narrows_armDeadline (s : ServiceState) (id : ServiceId) (deadline : Instant) :
    Narrows s (s.armDeadline id deadline) := by
  unfold armDeadline
  split
  · exact narrows_mapPending s fun _ => ⟨rfl, rfl, fun _ h => h⟩
  · split
    · rename_i txn hlook
      have hsize := Table.size_erase hlook
      refine .of_kept rfl rfl rfl rfl ?_ ?_ ?_ ?_ fun h => h
      · refine List.Perm.subperm ?_
        refine List.Perm.trans ?_ (claimed_of_inFlight hlook).symm
        unfold claimed transactions
        rw [Table.values_insert, List.map_append, List.map_append, List.map_cons,
          ← List.append_assoc, ← List.append_assoc]
        exact List.perm_middle
      · intro txn' hmem
        rcases List.mem_append.mp hmem with hslot | htable
        · exact ⟨txn', List.mem_append_left _ hslot, rfl, rfl, fun _ hr => hr⟩
        · have hvalues := Table.values_perm_erase hlook
          rw [Table.values_insert] at htable
          rcases List.mem_cons.mp htable with rfl | hrest
          · exact ⟨txn, List.mem_append_right _ (hvalues.symm.subset List.mem_cons_self), rfl, rfl,
              fun _ hr => hr⟩
          · exact ⟨txn', List.mem_append_right _ (hvalues.symm.subset
              (List.mem_cons_of_mem _ hrest)), rfl, rfl, fun _ hr => hr⟩
      · intro k txn' h
        dsimp only at h
        rw [Table.lookup_insert_eq] at h
        split_ifs at h with hk
        · obtain rfl := Option.some.inj h
          exact ⟨txn, hk ▸ hlook, rfl⟩
        · exact ⟨txn', h, rfl⟩
      · dsimp only
        rw [Table.size_insert]
        omega
    · exact Narrows.refl s

theorem narrows_takeTransaction (s : ServiceState) (id : ServiceId) :
    Narrows s (s.takeTransaction id).1 := by
  unfold takeTransaction
  split
  · split_ifs
    · exact narrows_clearPending s
    · exact Narrows.refl s
  · rename_i hnone
    split
    · exact narrows_erase s id
    · exact Narrows.refl s

theorem narrows_takeTombstone (s : ServiceState) (id : ServiceId) :
    Narrows s (s.takeTombstone id).1 :=
  narrows_erase_abandoned s id

/-- The state behind a response: its transaction is taken, or its tombstone. -/
def settled (s : ServiceState) (id : ServiceId) : ServiceState :=
  match s.takeTransaction id with
  | (s, .found _ _) => s
  | (s, _) => (s.takeTombstone id).1

theorem takeAck_fst (s : ServiceState) (id : ServiceId) (generation : Nat)
    (closed : CallerId → Bool) : (s.takeAck id generation closed).1 = s.settled id := by
  unfold takeAck settled
  rcases s.takeTransaction id with ⟨u, ⟨txn, home⟩ | - | -⟩
  · dsimp only
    split_ifs <;> rfl
  all_goals
    dsimp only
    rcases u.takeTombstone id with ⟨v, - | g⟩ <;> rfl

theorem takeReject_fst (s : ServiceState) (id : ServiceId) (generation : Nat) :
    (s.takeReject id generation).1 = s.settled id := by
  unfold takeReject settled
  rcases s.takeTransaction id with ⟨u, ⟨txn, home⟩ | - | -⟩
  · dsimp only
    split_ifs <;> rfl
  all_goals
    dsimp only
    rcases u.takeTombstone id with ⟨v, - | g⟩ <;> rfl

theorem narrows_settled (s : ServiceState) (id : ServiceId) : Narrows s (s.settled id) := by
  have htake := narrows_takeTransaction s id
  unfold settled
  rcases h : s.takeTransaction id with ⟨u, ⟨txn, home⟩ | - | -⟩
  · rw [h] at htake
    exact htake
  all_goals
    rw [h] at htake
    exact htake.trans (narrows_takeTombstone u id)

theorem narrows_expireOverdue (s : ServiceState) (now : Instant) :
    Narrows s (s.expireOverdue now).1 := by
  have hretain := narrows_retain s fun _ txn => !txn.overdue now
  unfold expireOverdue
  dsimp only
  split
  · split_ifs
    · exact hretain.trans (narrows_clearPending _)
    · exact hretain
    · exact hretain
  · exact hretain

/-- What is given up is not claimed any more, so it may be tombstoned. -/
theorem narrows_giveUp (hids : (s.claimed.map (·.id)).Nodup) (h : Narrows s t)
    {txn : PendingRegistration} (hmem : txn ∈ s.transactions)
    (hperm : s.claimed.Perm (txn.service :: t.claimed)) :
    Narrows s (t.tombstone txn.service.id txn.generation) := by
  have hcons := (hperm.map (·.id)).nodup_iff.mp hids
  have hgone := (List.nodup_cons.mp hcons).1
  exact
    { h with
      tombstones := fun hs => size_tombstone (h.tombstones hs) _ _
      dead := fun k g hk => by
        simp only [tombstone, Table.lookup_insert_eq] at hk
        split_ifs at hk with hid
        · cases hk
          subst hid
          exact .inr ⟨hgone, txn, hmem, rfl⟩
        · cases hk
        · exact h.dead k g hk }

theorem Represented.narrows_abandon (hr : s.Represented limit) (id : ServiceId) :
    Narrows s (s.abandon id).1 := by
  unfold abandon
  split
  · rename_i txn hlook
    have h := narrows_giveUp hr.ids (narrows_erase s id)
      (List.mem_append_right _ (Table.mem_values.mpr ⟨id, hlook⟩)) (claimed_of_inFlight hlook)
    rwa [hr.keyed id txn hlook] at h
  · exact Narrows.refl s

theorem Represented.narrows_cancelPending (hr : s.Represented limit) (id : ServiceId) :
    Narrows s (s.cancelPending id).1 := by
  unfold cancelPending
  split
  · rename_i txn hp
    split_ifs with hid
    · have h := narrows_giveUp hr.ids (narrows_clearPending s)
        (List.mem_append_left _ (Option.mem_toList.mpr hp)) (claimed_of_pending hp)
      rwa [hid] at h
    · exact Narrows.refl s
  · exact Narrows.refl s

theorem narrows_cancelInFlight (s : ServiceState) (id : ServiceId) :
    Narrows s (s.cancelInFlight id).1 := by
  unfold cancelInFlight
  split
  · exact narrows_erase s id
  · exact Narrows.refl s

/-- Forgetting an id in both lists. -/
theorem narrows_forget (s : ServiceState) (id : ServiceId)
    (hactive : ∀ id service, s.active.lookup id = some service → service.id = id) :
    Narrows s { s with desired := s.desired.filter (·.id ≠ id), active := s.active.erase id } where
  claimed := (List.Sublist.append List.filter_sublist (List.Sublist.refl _)).subperm
  origin := origin_of_subset (List.Subset.refl _)
  keyed _ txn h := ⟨txn, h, rfl⟩
  size := le_rfl
  pending h := h
  mode := rfl
  tombstones h := h
  dead _ _ h := .inl h
  active k service h := by
    dsimp only at h
    rw [Table.lookup_erase_eq] at h
    split_ifs at h with hk
    refine ⟨h, fun hmem => List.mem_filter.mpr ⟨hmem, ?_⟩⟩
    simpa [hactive k service h] using hk

theorem Represented.narrows_unregister (hr : s.Represented limit) (id : ServiceId) :
    Narrows s (s.unregister id).1 := by
  have hpending := hr.narrows_cancelPending id
  have hboth := hpending.trans (narrows_cancelInFlight (s.cancelPending id).1 id)
  refine hboth.trans (narrows_forget _ id ?_)
  intro k service h
  exact (hr.active k service (hboth.active k service h).1).1

/-- A refused `begin` gives up the tombstone at most. -/
theorem narrows_begin_error {service : ClientService} {generation : Nat} {reply : CallerId}
    {e : TunnelError} (h : s.begin service generation reply = (t, .error e)) : Narrows s t := by
  rcases begin_eq_error h with ⟨-, -, rfl⟩ | ⟨-, -, rfl⟩
  · exact Narrows.refl t
  · exact narrows_erase_abandoned s service.id

/-! ### Operations that do more -/

theorem Represented.setMode (hr : s.Represented limit) (mode : RegistrationMode) :
    (s.setMode mode).1.Represented limit := by
  have hfinish := hr.narrows (narrows_finishPending s .disconnected)
  exact
    { hfinish with
      serial := fun _ => rfl
      bounded := fun n _ => ⟨rfl, Nat.zero_le _⟩ }

theorem Represented.activateInitial (hr : s.Represented limit) :
    s.activateInitial.Represented limit :=
  { hr with
    active := fun id service h => by
      have hmem := Table.mem_of_lookup_ofList h
      obtain ⟨other, hother, heq⟩ := List.mem_map.mp hmem
      cases heq
      exact ⟨rfl, hother⟩ }

theorem not_mem_claimed_of_not_duplicate {service : ClientService}
    (h : s.duplicate service = false) :
    service.id ∉ s.claimed.map (·.id) ∧ service.name ∉ s.claimed.map (·.name) := by
  have hany := List.any_eq_false.mp h
  constructor
  · intro hmem
    obtain ⟨other, hother, heq⟩ := List.mem_map.mp hmem
    exact hany other hother (by simp [heq])
  · intro hmem
    obtain ⟨other, hother, heq⟩ := List.mem_map.mp hmem
    exact hany other hother (by simp [heq])

/-- A Service that is no duplicate has its place in the table free. -/
theorem lookup_of_not_duplicate
    (hkeyed : ∀ id txn, s.inFlight.lookup id = some txn → txn.service.id = id)
    {service : ClientService} (h : s.duplicate service = false) :
    s.inFlight.lookup service.id = none := by
  rcases hlook : s.inFlight.lookup service.id with - | txn
  · rfl
  · refine absurd ?_ (not_mem_claimed_of_not_duplicate h).1
    rw [← hkeyed _ _ hlook]
    refine List.mem_map_of_mem (List.mem_append_right _ (List.mem_map_of_mem ?_))
    exact List.mem_append_right _ (Table.mem_values.mpr ⟨_, hlook⟩)

/-- **What an accepted `begin` does**: the transaction joins its mode's table,
which had room, and takes its id and its name. -/
theorem begin_eq_ok {service : ClientService} {generation : Nat} {reply : CallerId}
    (h : s.begin service generation reply = (t, .ok ())) :
    s.duplicate service = false ∧
      ((s.mode = .legacySerial ∧ s.pending = none ∧
        t = { s with
          abandoned := s.abandoned.erase service.id
          pending := some ⟨service, generation, some reply, none⟩ }) ∨
      ∃ n, s.mode = .correlatedBounded n ∧ s.inFlight.size < max n 1 ∧
        t = { s with
          abandoned := s.abandoned.erase service.id
          inFlight := s.inFlight.insert service.id ⟨service, generation, some reply, none⟩ }) := by
  unfold begin at h
  split_ifs at h with hdup
  · cases h
  refine ⟨by simpa using hdup, ?_⟩
  dsimp only at h
  split at h
  · rename_i hmode
    split_ifs at h with hslot
    · cases h
    · cases h
      exact .inl ⟨hmode, by simpa using hslot, by rw [hmode]⟩
  · rename_i n hmode
    split_ifs at h with hfull
    · cases h
    · cases h
      exact .inr ⟨n, hmode, by omega, by rw [hmode]⟩

/-- The accepted Service joins those that are claimed. -/
theorem claimed_begin (hkeyed : ∀ id txn, s.inFlight.lookup id = some txn → txn.service.id = id)
    {service : ClientService} {generation : Nat} {reply : CallerId}
    (h : s.begin service generation reply = (t, .ok ())) :
    t.claimed.Perm (service :: s.claimed) := by
  obtain ⟨hdup, ⟨-, hnone, rfl⟩ | ⟨n, -, -, rfl⟩⟩ := begin_eq_ok h
  · simp only [claimed, transactions, hnone, Option.toList_some, Option.toList_none,
      List.nil_append, List.cons_append, List.map_cons]
    exact List.perm_middle
  · simp only [claimed, transactions, Table.values_insert,
      Table.erase_eq_self (lookup_of_not_duplicate hkeyed hdup), List.map_append, List.map_cons]
    rw [← List.append_assoc, ← List.append_assoc]
    exact List.perm_middle

theorem Represented.begin_ok (hr : s.Represented limit)
    (hroom : s.desired.length + s.unacknowledged < limit) {service : ClientService}
    {generation : Nat} {reply : CallerId} (h : s.begin service generation reply = (t, .ok ())) :
    t.Represented limit := by
  have hperm := claimed_begin hr.keyed h
  have hcap : t.desired.length + t.unacknowledged ≤ limit := by
    rw [← length_claimed, hperm.length_eq, List.length_cons, length_claimed]
    exact hroom
  obtain ⟨hdup, hcase⟩ := begin_eq_ok h
  obtain ⟨hid, hname⟩ := not_mem_claimed_of_not_duplicate hdup
  have hids : (t.claimed.map (·.id)).Nodup :=
    (hperm.map _).nodup_iff.mpr (List.nodup_cons.mpr ⟨hid, hr.ids⟩)
  have hnames : (t.claimed.map (·.name)).Nodup :=
    (hperm.map _).nodup_iff.mpr (List.nodup_cons.mpr ⟨hname, hr.names⟩)
  -- the tombstone of the id is gone, and the others are of other ids
  have hdead : ∀ k, ((s.abandoned.erase service.id).lookup k).isSome →
      k ∉ t.claimed.map (·.id) := by
    intro k hk hmem
    rw [Table.lookup_erase_eq] at hk
    split_ifs at hk with heq
    · cases hk
    · rcases List.mem_cons.mp ((hperm.map _).subset hmem) with rfl | hold
      · exact heq rfl
      · exact hr.dead k hk hold
  have htombs := (narrows_erase_abandoned s service.id).tombstones hr.tombstones
  rcases hcase with ⟨hmode, hnone, rfl⟩ | ⟨n, hmode, hsize, rfl⟩
  · exact
      { ids := hids
        names := hnames
        keyed := hr.keyed
        serial := fun _ => hr.serial hmode
        bounded := fun n hn => by rw [hmode] at hn; cases hn
        tombstones := htombs
        dead := hdead
        active := hr.active
        capacity := hcap }
  · refine
      { ids := hids
        names := hnames
        keyed := ?_
        serial := fun hser => by rw [hmode] at hser; cases hser
        bounded := ?_
        tombstones := htombs
        dead := hdead
        active := hr.active
        capacity := hcap }
    · intro k txn hk
      dsimp only at hk
      rw [Table.lookup_insert_eq] at hk
      split_ifs at hk with heq
      · cases hk
        exact heq.symm
      · exact hr.keyed k txn hk
    · intro n' hn'
      dsimp only at hn' ⊢
      obtain rfl : n = n' := by
        rw [hmode] at hn'
        cases hn'
        rfl
      refine ⟨(hr.bounded n hmode).1, ?_⟩
      have herase := (narrows_erase s service.id).size
      dsimp only at herase
      rw [Table.size_insert]
      omega

/-- Where a response finds its transaction. -/
theorem takeTransaction_eq_found {txn : PendingRegistration} {home : TransactionHome}
    (h : s.takeTransaction id = (u, .found txn home)) :
    (s.pending = some txn ∧ txn.service.id = id ∧ u = { s with pending := none }) ∨
      (s.pending = none ∧ s.inFlight.lookup id = some txn ∧
        u = { s with inFlight := s.inFlight.erase id }) := by
  unfold takeTransaction at h
  split at h
  · rename_i txn' hp
    split_ifs at h with hid
    · cases h
      exact .inl ⟨hp, hid, rfl⟩
    · cases h
  · rename_i hp
    split at h
    · rename_i txn' hlook
      cases h
      exact .inr ⟨hp, hlook, rfl⟩
    · cases h

theorem takeAck_eq_commit {generation : Nat} {closed : CallerId → Bool} {service : ClientService}
    {reply : Option CallerId} (h : s.takeAck id generation closed = (u, .commit service reply)) :
    ∃ txn home, s.takeTransaction id = (u, .found txn home) ∧ txn.generation = generation ∧
      txn.service = service ∧ txn.reply = reply ∧ txn.reply.all closed = false := by
  unfold takeAck at h
  rcases ht : s.takeTransaction id with ⟨v, ⟨txn, home⟩ | - | -⟩
  · rw [ht] at h
    dsimp only at h
    split_ifs at h with hgen hclosed
    · cases h
    · cases h
    · cases h
      exact ⟨txn, home, rfl, not_not.mp hgen, rfl, rfl, by simpa using hclosed⟩
  all_goals
    rw [ht] at h
    dsimp only at h
    rcases hv : v.takeTombstone id with ⟨w, - | g⟩
    · rw [hv] at h
      cases h
    · rw [hv] at h
      dsimp only at h
      split_ifs at h <;> cases h

/-- Committing what was just taken claims what was claimed before. -/
theorem claimed_commit {txn : PendingRegistration} {home : TransactionHome}
    (h : s.takeTransaction id = (u, .found txn home)) :
    (u.commit txn.service).claimed.Perm s.claimed := by
  have htaken : s.claimed.Perm (txn.service :: u.claimed) := by
    obtain ⟨hp, -, rfl⟩ | ⟨-, hlook, rfl⟩ := takeTransaction_eq_found h
    · exact claimed_of_pending hp
    · exact claimed_of_inFlight hlook
  refine List.Perm.trans ?_ htaken.symm
  show (u.desired ++ [txn.service] ++ u.transactions.map (·.service)).Perm _
  rw [List.append_assoc]
  exact List.perm_middle

theorem Represented.commit (hr : s.Represented limit) {txn : PendingRegistration}
    {home : TransactionHome} (h : s.takeTransaction id = (u, .found txn home)) :
    (u.commit txn.service).Represented limit := by
  have hperm := claimed_commit h
  have hu : u.Represented limit := by
    have := narrows_takeTransaction s id
    rw [h] at this
    exact hr.narrows this
  have hsame : u.abandoned = s.abandoned := by
    obtain ⟨-, -, rfl⟩ | ⟨-, -, rfl⟩ := takeTransaction_eq_found h <;> rfl
  exact
    { ids := (hperm.map _).nodup_iff.mpr hr.ids
      names := (hperm.map _).nodup_iff.mpr hr.names
      keyed := hu.keyed
      serial := hu.serial
      bounded := hu.bounded
      tombstones := hu.tombstones
      dead := fun k hk hmem => by
        rw [show (u.commit txn.service).abandoned = s.abandoned from hsame] at hk
        exact hr.dead k hk ((hperm.map _).subset hmem)
      active := fun k service hk => by
        simp only [ServiceState.commit, Table.lookup_insert_eq] at hk
        split_ifs at hk with heq
        · cases hk
          exact ⟨heq.symm, List.mem_append_right _ List.mem_cons_self⟩
        · obtain ⟨hid, hmem⟩ := hu.active k service hk
          exact ⟨hid, List.mem_append_left _ hmem⟩
      capacity := by
        rw [← length_claimed, hperm.length_eq, length_claimed]
        exact hr.capacity }

/-! ### Desired and active Services -/

/-- The lists of Services are the same. -/
def Kept (s t : ServiceState) : Prop := t.desired = s.desired ∧ t.active = s.active

theorem kept_takeTransaction (s : ServiceState) (id : ServiceId) :
    Kept s (s.takeTransaction id).1 := by
  unfold takeTransaction
  split
  · split_ifs <;> exact ⟨rfl, rfl⟩
  · split <;> exact ⟨rfl, rfl⟩

theorem kept_settled (s : ServiceState) (id : ServiceId) : Kept s (s.settled id) := by
  have htake := kept_takeTransaction s id
  unfold settled
  rcases h : s.takeTransaction id with ⟨u, ⟨txn, home⟩ | - | -⟩ <;>
    (rw [h] at htake; exact htake)

theorem kept_expireOverdue (s : ServiceState) (now : Instant) :
    Kept s (s.expireOverdue now).1 := by
  unfold expireOverdue
  dsimp only
  split
  · split_ifs <;> exact ⟨rfl, rfl⟩
  · exact ⟨rfl, rfl⟩

theorem kept_abandon (s : ServiceState) (id : ServiceId) : Kept s (s.abandon id).1 := by
  unfold abandon
  split <;> exact ⟨rfl, rfl⟩

theorem kept_armDeadline (s : ServiceState) (id : ServiceId) (deadline : Instant) :
    Kept s (s.armDeadline id deadline) := by
  unfold armDeadline
  split
  · exact ⟨rfl, rfl⟩
  · split <;> exact ⟨rfl, rfl⟩

theorem kept_begin (s : ServiceState) (service : ClientService) (generation : Nat)
    (reply : CallerId) : Kept s (s.begin service generation reply).1 := by
  unfold begin
  split_ifs
  · exact ⟨rfl, rfl⟩
  · dsimp only
    split <;> split_ifs <;> exact ⟨rfl, rfl⟩

theorem mode_begin {service : ClientService} {generation : Nat} {reply : CallerId}
    {result : Except TunnelError Unit} (h : s.begin service generation reply = (t, result)) :
    t.mode = s.mode := by
  unfold begin at h
  dsimp only at h
  split at h
  · rw [← (Prod.mk.inj h).1]
  · split at h <;> split at h <;> rw [← (Prod.mk.inj h).1]

theorem kept_cancelPending (s : ServiceState) (id : ServiceId) :
    Kept s (s.cancelPending id).1 := by
  unfold cancelPending
  split
  · split_ifs <;> exact ⟨rfl, rfl⟩
  · exact ⟨rfl, rfl⟩

theorem kept_cancelInFlight (s : ServiceState) (id : ServiceId) :
    Kept s (s.cancelInFlight id).1 := by
  unfold cancelInFlight
  split <;> exact ⟨rfl, rfl⟩

theorem lists_unregister (s : ServiceState) (id : ServiceId) :
    (s.unregister id).1.desired = s.desired.filter (·.id ≠ id) ∧
      (s.unregister id).1.active = s.active.erase id := by
  obtain ⟨hd, ha⟩ := kept_cancelPending s id
  obtain ⟨hd', ha'⟩ := kept_cancelInFlight (s.cancelPending id).1 id
  constructor
  · show ((s.cancelPending id).1.cancelInFlight id).1.desired.filter _ = _
    rw [hd', hd]
  · show ((s.cancelPending id).1.cancelInFlight id).1.active.erase id = _
    rw [ha', ha]

end ServiceState

namespace Operation

open ServiceState

variable {s : ServiceState} {limit generation : Nat}

/-- The operation leaves the connection state of the Services alone. -/
def isInner : Operation → Bool
  | .clearActive => false
  | .activateInitial => false
  | _ => true

/-- **What an operation does to the Services** is what it is remembered for. -/
theorem lists_apply (s : ServiceState) (op : Operation) :
    (op.apply s).1.desired = (op.record s).foldl Record.amend s.desired ∧
      (op.isInner = true →
        (op.apply s).1.active = (op.record s).foldl Record.amendActive s.active) := by
  cases op with
  | setMode mode => exact ⟨rfl, fun _ => rfl⟩
  | clearActive => exact ⟨rfl, fun h => by cases h⟩
  | activateInitial => exact ⟨rfl, fun h => by cases h⟩
  | begin service generation reply closed limit =>
      have hkept := kept_begin s service generation reply
      simp only [apply, record]
      split_ifs
      · exact ⟨rfl, fun _ => rfl⟩
      · exact ⟨rfl, fun _ => rfl⟩
      · rcases h : s.begin service generation reply with ⟨t, e | ok⟩
        · rw [h] at hkept
          exact ⟨hkept.1, fun _ => hkept.2⟩
        · rw [h] at hkept
          exact ⟨hkept.1, fun _ => hkept.2⟩
  | decline reply => exact ⟨rfl, fun _ => rfl⟩
  | armDeadline id deadline =>
      have hkept := kept_armDeadline s id deadline
      exact ⟨hkept.1, fun _ => hkept.2⟩
  | loseReply => exact ⟨rfl, fun _ => rfl⟩
  | abandon id =>
      have hkept := kept_abandon s id
      exact ⟨hkept.1, fun _ => hkept.2⟩
  | acknowledge id generation closed bind =>
      have hkept := kept_settled s id
      rw [← takeAck_fst s id generation closed] at hkept
      simp only [apply, record]
      rcases h : s.takeAck id generation closed with ⟨t, ⟨service, reply⟩ | - | reply | -⟩
      · rw [h] at hkept
        obtain ⟨hdesired, hactive⟩ := hkept
        refine ⟨?_, fun _ => ?_⟩
        · show t.desired ++ [service] = s.desired ++ [service]
          rw [hdesired]
        · show t.active.insert service.id service = s.active.insert service.id service
          rw [hactive]
      all_goals
        rw [h] at hkept
        exact ⟨hkept.1, fun _ => hkept.2⟩
  | takeReject id generation error =>
      have hkept := kept_settled s id
      rw [← takeReject_fst s id generation] at hkept
      simp only [apply, record]
      rcases h : s.takeReject id generation with ⟨t, reply | reply | -⟩ <;>
        (rw [h] at hkept; exact ⟨hkept.1, fun _ => hkept.2⟩)
  | reject error =>
      simp only [apply, record]
      unfold ServiceState.reject
      rcases hp : s.pending with - | txn <;> exact ⟨rfl, fun _ => rfl⟩
  | expireOverdue now =>
      have hkept := kept_expireOverdue s now
      exact ⟨hkept.1, fun _ => hkept.2⟩
  | unregister id =>
      have hlists := lists_unregister s id
      exact ⟨hlists.1, fun _ => hlists.2⟩
  | finishPending error => exact ⟨rfl, fun _ => rfl⟩

/-! ### The invariant over operations -/

/-- The capacity check of a registration is against the given limit. -/
def Within (limit : Nat) : Operation → Prop
  | .begin _ _ _ _ l => l = limit
  | _ => True

/-- **Every operation keeps the representation invariant.** -/
theorem represented_apply (hr : s.Represented limit) {op : Operation} (hop : op.Within limit) :
    (op.apply s).1.Represented limit := by
  cases op with
  | setMode mode => exact hr.setMode mode
  | clearActive => exact hr.narrows (narrows_clearActive s)
  | activateInitial => exact hr.activateInitial
  | begin service generation reply closed l =>
      obtain rfl : l = limit := hop
      simp only [apply]
      split_ifs with hfull hclosed
      · exact hr
      · exact hr
      · rcases h : s.begin service generation reply with ⟨t, e | ok⟩
        · exact hr.narrows (narrows_begin_error h)
        · exact hr.begin_ok (Nat.not_le.mp hfull) h
  | decline reply => exact hr
  | armDeadline id deadline => exact hr.narrows (narrows_armDeadline s id deadline)
  | loseReply => exact hr.narrows (narrows_mapPending s fun _ => ⟨rfl, rfl, fun _ h => by cases h⟩)
  | abandon id => exact hr.narrows (hr.narrows_abandon id)
  | acknowledge id generation closed bind =>
      have hsettled := hr.narrows (narrows_settled s id)
      rw [← takeAck_fst s id generation closed] at hsettled
      simp only [apply]
      rcases h : s.takeAck id generation closed with ⟨t, ⟨service, reply⟩ | - | reply | -⟩
      · obtain ⟨txn, home, htake, -, rfl, -⟩ := takeAck_eq_commit h
        exact hr.commit htake
      all_goals
        rw [h] at hsettled
        exact hsettled
  | takeReject id generation error =>
      have hsettled := hr.narrows (narrows_settled s id)
      rw [← takeReject_fst s id generation] at hsettled
      simp only [apply]
      rcases h : s.takeReject id generation with ⟨t, reply | reply | -⟩ <;>
        (rw [h] at hsettled; exact hsettled)
  | reject error =>
      have hclear := hr.narrows (narrows_clearPending s)
      simp only [apply]
      unfold ServiceState.reject
      rcases hp : s.pending with - | txn <;> exact hclear
  | expireOverdue now => exact hr.narrows (narrows_expireOverdue s now)
  | unregister id => exact hr.narrows (hr.narrows_unregister id)
  | finishPending error => exact hr.narrows (narrows_finishPending s error)

end Operation

namespace ServiceState

/-! ### Within a ready Session -/

/-- What holds besides within a ready Session of the given generation. -/
structure Current (generation : Nat) (s : ServiceState) : Prop where
  stamped : ∀ txn ∈ s.transactions, txn.generation = generation
  tombstoned : ∀ id g, s.abandoned.lookup id = some g → g = generation
  active : ∀ service ∈ s.desired, s.active.lookup service.id = some service

variable {s t : ServiceState} {generation limit : Nat}

/-- Giving up transactions keeps their stamps. -/
theorem Current.narrows (hc : s.Current generation) (h : Narrows s t) (hkept : Kept s t) :
    t.Current generation where
  stamped txn hmem := by
    obtain ⟨txn', hmem', -, hgen, -⟩ := h.origin txn hmem
    rw [← hgen]
    exact hc.stamped txn' hmem'
  tombstoned id g hg := by
    rcases h.dead id g hg with hs | ⟨-, txn, hmem, rfl⟩
    · exact hc.tombstoned id g hs
    · exact hc.stamped txn hmem
  active service hmem := by
    rw [hkept.1] at hmem
    rw [hkept.2]
    exact hc.active service hmem

theorem Current.begin_ok (hc : s.Current generation) {service : ClientService}
    {reply : CallerId} (h : s.begin service generation reply = (t, .ok ())) :
    t.Current generation := by
  have htombs : ∀ id g, (s.abandoned.erase service.id).lookup id = some g → g = generation := by
    intro id g hg
    rw [Table.lookup_erase_eq] at hg
    split_ifs at hg
    exact hc.tombstoned id g hg
  obtain ⟨-, ⟨-, hnone, rfl⟩ | ⟨n, -, -, rfl⟩⟩ := begin_eq_ok h
  · refine ⟨fun txn hmem => ?_, htombs, hc.active⟩
    rcases List.mem_append.mp hmem with hslot | htable
    · cases Option.mem_toList.mp hslot
      rfl
    · exact hc.stamped txn (List.mem_append_right _ htable)
  · refine ⟨fun txn hmem => ?_, htombs, hc.active⟩
    rcases List.mem_append.mp hmem with hslot | htable
    · exact hc.stamped txn (List.mem_append_left _ hslot)
    · rw [Table.values_insert] at htable
      rcases List.mem_cons.mp htable with rfl | hrest
      · rfl
      · obtain ⟨k, hk⟩ := Table.mem_values.mp hrest
        rw [Table.lookup_erase_eq] at hk
        split_ifs at hk
        exact hc.stamped txn (List.mem_append_right _ (Table.mem_values.mpr ⟨k, hk⟩))

/-- A committed Service becomes active under an id that no other one has. -/
theorem Current.commit (hr : s.Represented limit) (hc : s.Current generation) {id : ServiceId}
    {u : ServiceState} {txn : PendingRegistration} {home : TransactionHome}
    (h : s.takeTransaction id = (u, .found txn home)) :
    (u.commit txn.service).Current generation := by
  have hnarrows := narrows_takeTransaction s id
  have hkept := kept_takeTransaction s id
  rw [h] at hnarrows hkept
  have hu := hc.narrows hnarrows hkept
  have hids := (hr.commit h).ids
  refine ⟨hu.stamped, hu.tombstoned, fun service hmem => ?_⟩
  simp only [ServiceState.commit, Table.lookup_insert_eq] at hmem ⊢
  rcases List.mem_append.mp hmem with hold | hnew
  · have hne : service.id ≠ txn.service.id := by
      intro heq
      have hnodup : ((u.desired ++ [txn.service]).map (·.id)).Nodup :=
        hids.sublist ((List.sublist_append_left _ _).map _)
      rw [List.map_append, List.nodup_append] at hnodup
      exact hnodup.2.2 _ (List.mem_map_of_mem hold) _ (by simp) heq
    rw [if_neg hne]
    exact hu.active service hold
  · rw [List.mem_singleton.mp hnew, if_pos rfl]

theorem Current.unregister (hr : s.Represented limit) (hc : s.Current generation)
    (id : ServiceId) : (s.unregister id).1.Current generation := by
  have hpending := hr.narrows_cancelPending id
  have hboth := hpending.trans (narrows_cancelInFlight (s.cancelPending id).1 id)
  have hkept : Kept s ((s.cancelPending id).1.cancelInFlight id).1 := by
    obtain ⟨hd, ha⟩ := kept_cancelPending s id
    obtain ⟨hd', ha'⟩ := kept_cancelInFlight (s.cancelPending id).1 id
    exact ⟨hd'.trans hd, ha'.trans ha⟩
  have hu := hc.narrows hboth hkept
  refine ⟨hu.stamped, hu.tombstoned, fun service hmem => ?_⟩
  obtain ⟨hdesired, hactive⟩ := lists_unregister s id
  rw [hdesired, List.mem_filter] at hmem
  rw [hactive, Table.lookup_erase_eq, if_neg (by simpa using hmem.2)]
  exact hc.active service hmem.1

end ServiceState

/-- An operation of the select loop of the Session of this generation. -/
def Operation.InSession (generation : Nat) : Operation → Prop
  | .setMode _ => False
  | .clearActive => False
  | .activateInitial => False
  | .finishPending _ => False
  | .begin _ g _ _ _ => g = generation
  | _ => True

open ServiceState in
/-- **Every operation of the select loop keeps what holds in a ready Session.** -/
theorem Operation.current_apply {s : ServiceState} {limit generation : Nat}
    (hr : s.Represented limit) (hc : s.Current generation) {op : Operation}
    (hop : op.InSession generation) : (op.apply s).1.Current generation := by
  cases op with
  | setMode | clearActive | activateInitial | finishPending => cases hop
  | begin service g reply closed l =>
      obtain rfl : g = generation := hop
      simp only [apply]
      split_ifs
      · exact hc
      · exact hc
      · have hkept := kept_begin s service g reply
        rcases h : s.begin service g reply with ⟨t, e | ok⟩
        · rw [h] at hkept
          exact hc.narrows (narrows_begin_error h) hkept
        · exact hc.begin_ok h
  | decline reply => exact hc
  | armDeadline id deadline =>
      exact hc.narrows (narrows_armDeadline s id deadline) (kept_armDeadline s id deadline)
  | loseReply =>
      exact hc.narrows (narrows_mapPending s fun _ => ⟨rfl, rfl, fun _ h => by cases h⟩) ⟨rfl, rfl⟩
  | abandon id => exact hc.narrows (hr.narrows_abandon id) (kept_abandon s id)
  | acknowledge id g closed bind =>
      have hsettled := hc.narrows (narrows_settled s id) (kept_settled s id)
      rw [← takeAck_fst s id g closed] at hsettled
      simp only [apply]
      rcases h : s.takeAck id g closed with ⟨t, ⟨service, reply⟩ | - | reply | -⟩
      · obtain ⟨txn, home, htake, -, rfl, -⟩ := takeAck_eq_commit h
        exact hc.commit hr htake
      all_goals
        rw [h] at hsettled
        exact hsettled
  | takeReject id g error =>
      have hsettled := hc.narrows (narrows_settled s id) (kept_settled s id)
      rw [← takeReject_fst s id g] at hsettled
      simp only [apply]
      rcases h : s.takeReject id g with ⟨t, reply | reply | -⟩ <;>
        (rw [h] at hsettled; exact hsettled)
  | reject error =>
      have hclear := hc.narrows (narrows_clearPending s) ⟨rfl, rfl⟩
      simp only [apply]
      unfold ServiceState.reject
      rcases hp : s.pending with - | txn <;> exact hclear
  | expireOverdue now => exact hc.narrows (narrows_expireOverdue s now) (kept_expireOverdue s now)
  | unregister id => exact hc.unregister hr id

end Eggtunnel
