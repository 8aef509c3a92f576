/-
Eggtunnel/Table.lean

Finite maps, independent of any particular program.

A hash map is modelled by its observable content: an association list with
distinct keys.  Mathlib's `AList` carries the distinctness as a field, so no
operation can break it; this file adds what a program's map has besides:
`values`, `size` and `retain`, and the `lookup` equations in the `if` form in
which a proof by cases on the key uses them.
-/
import Mathlib.Algebra.GroupWithZero.Nat
import Mathlib.Data.List.AList

namespace Eggtunnel

/-- A finite map from `K` to `V`. -/
abbrev Table (K V : Type) := AList fun _ : K => V

namespace Table

variable {K V : Type}

/-- The stored values, in no particular order. -/
def values (t : Table K V) : List V := t.entries.map Sigma.snd

/-- The number of entries. -/
def size (t : Table K V) : Nat := t.entries.length

/-- `HashMap::retain`. -/
def retain (p : K → V → Bool) (t : Table K V) : Table K V where
  entries := t.entries.filter fun e => p e.1 e.2
  nodupKeys := t.nodupKeys.sublist List.filter_sublist

/-- The same keys, with `f` of each value. -/
def mapValues {W : Type} (f : V → W) (t : Table K V) : Table K W where
  entries := t.entries.map fun e => ⟨e.1, f e.2⟩
  nodupKeys := by
    have hkeys : (t.entries.map fun e => (⟨e.1, f e.2⟩ : Σ _ : K, W)).keys = t.entries.keys := by
      simp [List.keys]
    rw [List.NodupKeys, hkeys]
    exact t.nodupKeys

/-- A quantity summed over the stored values. -/
def total (f : V → Nat) (t : Table K V) : Nat := (t.values.map f).sum

theorem size_eq_zero_iff {t : Table K V} : t.size = 0 ↔ t = ∅ := by
  rw [size, List.length_eq_zero_iff, AList.ext_iff]
  rfl

theorem size_retain_le (p : K → V → Bool) (t : Table K V) : (t.retain p).size ≤ t.size :=
  List.length_filter_le _ _

theorem values_retain (p : V → Bool) (t : Table K V) :
    (t.retain fun _ v => p v).values = t.values.filter p := by
  rw [values, values, List.filter_map]
  rfl

/-- How many of the stored values meet `p`. -/
theorem length_filter_values (p : V → Bool) (t : Table K V) :
    (t.values.filter p).length = t.total fun v => (p v).toNat := by
  rw [total]
  induction t.values with
  | nil => rfl
  | cons v vs ih =>
      rw [List.filter_cons, List.map_cons, List.sum_cons, ← ih]
      cases p v with
      | true => exact Nat.add_comm _ _
      | false => exact (Nat.zero_add _).symm

theorem total_mapValues {W : Type} (g : V → W) (f : W → Nat) (t : Table K V) :
    (t.mapValues g).total f = t.total fun v => f (g v) := by
  simp [total, values, mapValues, Function.comp_def]

variable [DecidableEq K]

/-- `collect::<HashMap<_, _>>()`: a later value under the same key replaces
the earlier one. -/
def ofList (kvs : List (Σ _ : K, V)) : Table K V := kvs.reverse.toAList

theorem entries_erase (t : Table K V) (k : K) : (t.erase k).entries = t.entries.kerase k := rfl

/-! ### Lookups -/

theorem lookup_insert_eq (a k : K) (v : V) (t : Table K V) :
    (t.insert k v).lookup a = if a = k then some v else t.lookup a := by
  split_ifs with h
  · rw [h, AList.lookup_insert]
  · exact AList.lookup_insert_ne h

theorem lookup_erase_eq (a k : K) (t : Table K V) :
    (t.erase k).lookup a = if a = k then none else t.lookup a := by
  split_ifs with h
  · rw [h, AList.lookup_erase]
  · exact AList.lookup_erase_ne h

theorem lookup_eq_some_iff {t : Table K V} {k : K} {v : V} :
    t.lookup k = some v ↔ ⟨k, v⟩ ∈ t.entries :=
  AList.mem_lookup_iff

theorem lookup_retain (p : K → V → Bool) (t : Table K V) (k : K) :
    (t.retain p).lookup k = (t.lookup k).filter (p k) := by
  ext v
  rw [lookup_eq_some_iff, retain, List.mem_filter, ← lookup_eq_some_iff]
  simp

/-- `retain` of what is all to be kept. -/
theorem retain_eq_self {p : K → V → Bool} {t : Table K V}
    (h : ∀ k v, t.lookup k = some v → p k v = true) : t.retain p = t := by
  refine AList.ext (List.filter_eq_self.mpr ?_)
  rintro ⟨k, v⟩ hmem
  exact h k v (lookup_eq_some_iff.mpr hmem)

theorem mem_values {t : Table K V} {v : V} : v ∈ t.values ↔ ∃ k, t.lookup k = some v := by
  simp only [values, List.mem_map, lookup_eq_some_iff]
  constructor
  · rintro ⟨⟨k, w⟩, hmem, rfl⟩
    exact ⟨k, hmem⟩
  · rintro ⟨k, hmem⟩
    exact ⟨⟨k, v⟩, hmem, rfl⟩

theorem eq_empty_iff {t : Table K V} : t = ∅ ↔ ∀ k, t.lookup k = none := by
  constructor
  · rintro rfl k
    exact AList.lookup_empty k
  · intro h
    rw [← size_eq_zero_iff, size, List.length_eq_zero_iff, List.eq_nil_iff_forall_not_mem]
    rintro ⟨k, v⟩ hmem
    rw [← lookup_eq_some_iff, h] at hmem
    cases hmem

theorem exists_lookup {t : Table K V} (h : t ≠ ∅) : ∃ k v, t.lookup k = some v := by
  by_contra hnone
  refine h (eq_empty_iff.mpr fun k => Option.eq_none_iff_forall_ne_some.mpr fun v hv => ?_)
  exact hnone ⟨k, v, hv⟩

/-- What a `collect` stores under `k` is one of the values given for `k`. -/
theorem mem_of_lookup_ofList {kvs : List (Σ _ : K, V)} {k : K} {v : V}
    (h : (ofList kvs).lookup k = some v) : ⟨k, v⟩ ∈ kvs := by
  rw [ofList, AList.lookup_to_alist] at h
  exact List.mem_reverse.mp (List.of_mem_dlookup h)

/-- Keys that are distinct keep every value. -/
theorem lookup_ofList {kvs : List (Σ _ : K, V)} (hnd : kvs.NodupKeys) {k : K} {v : V}
    (h : ⟨k, v⟩ ∈ kvs) : (ofList kvs).lookup k = some v := by
  rw [ofList, AList.lookup_to_alist]
  exact List.mem_dlookup ((List.perm_nodupKeys kvs.reverse_perm).mpr hnd)
    (List.mem_reverse.mpr h)

theorem lookup_eq_none_of_size {t : Table K V} (h : t.size = 0) (k : K) : t.lookup k = none := by
  rw [size_eq_zero_iff.mp h, AList.lookup_empty]

theorem erase_eq_self {t : Table K V} {k : K} (h : t.lookup k = none) : t.erase k = t :=
  AList.ext (List.kerase_of_notMem_keys (AList.lookup_eq_none.mp h))

/-! ### Mapped values -/

section mapValues

variable {W : Type} (g : V → W)

theorem lookup_mapValues (t : Table K V) (k : K) :
    (t.mapValues g).lookup k = (t.lookup k).map g := by
  ext w
  rw [lookup_eq_some_iff, Option.map_eq_some_iff]
  simp only [mapValues, List.mem_map, lookup_eq_some_iff]
  constructor
  · rintro ⟨⟨a, v⟩, hmem, heq⟩
    cases heq
    exact ⟨v, hmem, rfl⟩
  · rintro ⟨v, hmem, rfl⟩
    exact ⟨⟨k, v⟩, hmem, rfl⟩

theorem mapValues_erase (t : Table K V) (k : K) :
    mapValues g (t.erase k) = (t.mapValues g).erase k := by
  refine AList.ext ?_
  rw [entries_erase]
  simp only [mapValues, entries_erase, List.kerase, List.eraseP_map, Function.comp_def]

theorem mapValues_insert (t : Table K V) (k : K) (v : V) :
    mapValues g (t.insert k v) = (t.mapValues g).insert k (g v) := by
  have herase := congrArg AList.entries (mapValues_erase g t k)
  refine AList.ext ?_
  rw [AList.entries_insert]
  simp only [mapValues, AList.entries_insert, List.map_cons] at herase ⊢
  exact congrArg _ herase

end mapValues

/-! ### Sizes and totals -/

variable {f : V → Nat} {t : Table K V} {k : K} {v : V}

theorem total_insert (f : V → Nat) (k : K) (v : V) (t : Table K V) :
    total f (t.insert k v) = f v + total f (t.erase k) := by
  simp [total, values, entries_erase]

/-- A stored entry, and the others. -/
theorem entries_perm_erase (h : t.lookup k = some v) :
    t.entries.Perm (⟨k, v⟩ :: (t.erase k).entries) := by
  have aux (l : List (Σ _ : K, V)) (hl : l.dlookup k = some v) : l.Perm (⟨k, v⟩ :: l.kerase k) := by
    induction l with
    | nil => cases hl
    | cons e l ih =>
        obtain ⟨a, w⟩ := e
        rcases eq_or_ne k a with rfl | hne
        · rw [List.dlookup_cons_eq] at hl
          obtain rfl := Option.some.inj hl
          have hkerase : List.kerase k (⟨k, w⟩ :: l) = l := List.kerase_cons_eq rfl
          rw [hkerase]
        · have hl' : l.dlookup k = some v := by
            rwa [List.dlookup_cons_ne l (⟨a, w⟩ : Σ _ : K, V) hne] at hl
          have hkerase : List.kerase k (⟨a, w⟩ :: l) = ⟨a, w⟩ :: l.kerase k := List.kerase_cons_ne hne
          rw [hkerase]
          exact ((ih hl').cons _).trans (.swap _ _ _)
  exact aux t.entries h

theorem values_perm_erase (h : t.lookup k = some v) :
    t.values.Perm (v :: values (t.erase k)) := by
  have hmap := (entries_perm_erase h).map Sigma.snd
  exact hmap

theorem values_insert (k : K) (v : V) (t : Table K V) :
    values (t.insert k v) = v :: values (t.erase k) := by
  simp [values, entries_erase]

/-- A stored value counts once. -/
theorem total_erase (h : t.lookup k = some v) : t.total f = f v + total f (t.erase k) :=
  ((values_perm_erase h).map f).sum_nat

/-- Replacing a value replaces its share. -/
theorem total_replace (h : t.lookup k = some v) (w : V) :
    total f (t.insert k w) + f v = t.total f + f w := by
  rw [total_insert, total_erase h]
  omega

theorem le_total (h : t.lookup k = some v) : f v ≤ t.total f := by
  rw [total_erase h]
  omega

theorem total_erase_le (t : Table K V) (k : K) : total f (t.erase k) ≤ t.total f := by
  rcases h : t.lookup k with - | v
  · rw [erase_eq_self h]
  · rw [total_erase h]
    exact Nat.le_add_left _ _

theorem size_insert (k : K) (v : V) (t : Table K V) :
    size (t.insert k v) = size (t.erase k) + 1 := by
  simp [size, entries_erase]

theorem size_erase (h : t.lookup k = some v) : size (t.erase k) + 1 = t.size := by
  have hcount (u : Table K V) : u.size = u.total fun _ => 1 := by
    simp [size, total, values, Function.comp_def]
  rw [hcount, hcount, total_erase h, Nat.add_comm]

theorem size_erase_le (t : Table K V) (k : K) : size (t.erase k) ≤ t.size := by
  rcases h : t.lookup k with - | v
  · rw [erase_eq_self h]
  · exact Nat.le_of_succ_le (Nat.le_of_eq (size_erase h))

end Table

end Eggtunnel
