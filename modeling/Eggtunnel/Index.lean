/-
Eggtunnel/Index.lean

One list that indexes the keys of many owners, independent of any particular
program.

Every owner keeps its own keys; the index is a single list of (owner, key)
pairs that all of them share.  `Indexes index keys` says that the part of the
index that belongs to an owner lists exactly the keys of that owner.  An owner
enters and removes keys one at a time, and leaves with all its keys at once.
-/
import Mathlib.Data.List.Perm.Basic
import Mathlib.Data.List.Dedup
import Mathlib.Data.Finset.Card
import Mathlib.Algebra.Order.BigOperators.Group.Finset

namespace Eggtunnel

variable {O I : Type} [DecidableEq O]

/-- The keys that the index has for an owner. -/
def slice (index : List (O × I)) (o : O) : List I := (index.filter (·.1 = o)).map (·.2)

/-- The index has the keys of every owner, each of them once. -/
structure Indexes (index : List (O × I)) (keys : O → List I) : Prop where
  perm : ∀ o, (slice index o).Perm (keys o)
  nodup : ∀ o, (keys o).Nodup

namespace Indexes

variable {index : List (O × I)} {keys : O → List I} {o : O} {i : I}

theorem mem_slice : i ∈ slice index o ↔ (o, i) ∈ index := by
  simp [slice]

theorem nil : Indexes ([] : List (O × I)) fun _ => [] := ⟨fun _ => .refl _, fun _ => .nil⟩

theorem mem (h : Indexes index keys) : (o, i) ∈ index ↔ i ∈ keys o := by
  rw [← mem_slice]
  exact (h.perm o).mem_iff

/-- An owner enters a key. -/
theorem enter (h : Indexes index keys) (hi : i ∉ keys o) :
    Indexes (index ++ [(o, i)]) (Function.update keys o (i :: keys o)) where
  perm p := by
    rcases eq_or_ne p o with rfl | hne
    · have hslice : slice (index ++ [(p, i)]) p = slice index p ++ [i] := by simp [slice]
      rw [hslice, Function.update_self]
      exact (List.perm_append_singleton i _).trans ((h.perm p).cons i)
    · have hslice : slice (index ++ [(o, i)]) p = slice index p := by simp [slice, hne.symm]
      rw [hslice, Function.update_of_ne hne]
      exact h.perm p
  nodup p := by
    rcases eq_or_ne p o with rfl | hne
    · rw [Function.update_self]
      exact List.nodup_cons.mpr ⟨hi, h.nodup p⟩
    · rw [Function.update_of_ne hne]
      exact h.nodup p

/-- An owner leaves. -/
theorem leave (h : Indexes index keys) (o : O) :
    Indexes (index.filter fun b => b.1 ≠ o) (Function.update keys o []) where
  perm p := by
    rcases eq_or_ne p o with rfl | hne
    · have hslice : slice (index.filter fun b => b.1 ≠ p) p = [] := by simp [slice]
      rw [hslice, Function.update_self]
    · have hslice : slice (index.filter fun b => b.1 ≠ o) p = slice index p := by
        rw [slice, slice, List.filter_filter]
        refine congrArg _ (List.filter_congr fun b _ => ?_)
        by_cases hb : b.1 = p <;> simp [hb, hne]
      rw [hslice, Function.update_of_ne hne]
      exact h.perm p
  nodup p := by
    rcases eq_or_ne p o with rfl | hne
    · rw [Function.update_self]
      exact .nil
    · rw [Function.update_of_ne hne]
      exact h.nodup p

/-- Those who stay have what the leaver had not. -/
theorem length_leave (h : Indexes index keys) (o : O) :
    (index.filter fun b => b.1 ≠ o).length + (keys o).length = index.length := by
  have hsplit := List.length_eq_length_filter_add (l := index) (·.1 = o)
  rw [← (h.perm o).length_eq, slice, List.length_map, Nat.add_comm, hsplit]
  simp

variable [DecidableEq I]

/-- An owner removes a key. -/
theorem remove (h : Indexes index keys) (o : O) (i : I) :
    Indexes (index.filter fun b => b.1 ≠ o || b.2 ≠ i)
      (Function.update keys o ((keys o).erase i)) where
  perm p := by
    rcases eq_or_ne p o with rfl | hne
    · have hslice : slice (index.filter fun b => b.1 ≠ p || b.2 ≠ i) p
          = (slice index p).filter (· != i) := by
        rw [slice, slice, List.filter_filter, List.filter_map, List.filter_filter]
        refine congrArg _ (List.filter_congr fun b _ => ?_)
        rw [Bool.eq_iff_iff]
        by_cases hb : b.1 = p <;> simp [hb]
      have hnodup : (slice index p).Nodup := (h.perm p).nodup_iff.mpr (h.nodup p)
      rw [hslice, Function.update_self, ← List.Nodup.erase_eq_filter hnodup]
      exact (h.perm p).erase i
    · have hslice : slice (index.filter fun b => b.1 ≠ o || b.2 ≠ i) p = slice index p := by
        rw [slice, slice, List.filter_filter]
        refine congrArg _ (List.filter_congr fun b _ => ?_)
        by_cases hb : b.1 = p <;> simp [hb, hne]
      rw [hslice, Function.update_of_ne hne]
      exact h.perm p
  nodup p := by
    rcases eq_or_ne p o with rfl | hne
    · rw [Function.update_self]
      exact (h.nodup p).erase i
    · rw [Function.update_of_ne hne]
      exact h.nodup p

/-- The index has no pair twice. -/
theorem nodup_index (h : Indexes index keys) : index.Nodup := by
  rw [List.nodup_iff_count_le_one]
  rintro ⟨o, i⟩
  have hslice : (slice index o).count i ≤ 1 :=
    List.nodup_iff_count_le_one.mp ((h.perm o).nodup_iff.mpr (h.nodup o)) i
  calc index.count (o, i) = (index.filter (·.1 = o)).count (o, i) :=
        (List.count_filter (by simp)).symm
    _ ≤ (slice index o).count i := List.count_le_count_map (f := Prod.snd)
    _ ≤ 1 := hslice

/-- A removed key was one entry. -/
theorem length_remove (h : Indexes index keys) (hi : i ∈ keys o) :
    (index.filter fun b => b.1 ≠ o || b.2 ≠ i).length + 1 = index.length := by
  have hfilter : (index.filter fun b => b.1 ≠ o || b.2 ≠ i) = index.erase (o, i) := by
    rw [h.nodup_index.erase_eq_filter]
    refine List.filter_congr fun b _ => ?_
    rw [Bool.eq_iff_iff]
    simp [Prod.ext_iff, imp_iff_not_or]
  rw [hfilter, List.length_erase_of_mem (h.mem.mpr hi)]
  exact Nat.sub_add_cancel (List.length_pos_of_mem (h.mem.mpr hi))

/-- Few owners with few keys each make a short index. -/
theorem length_le (h : Indexes index keys) (owners : List O) (n : Nat)
    (howners : ∀ o i, i ∈ keys o → o ∈ owners) (hn : ∀ o, (keys o).length ≤ n) :
    index.length ≤ n * owners.length := by
  have hcard : index.toFinset.card ≤ n * (index.toFinset.image (·.1)).card := by
    refine Finset.card_le_mul_card_image _ n fun o _ => ?_
    -- the pairs of one owner are as many as its keys
    have hsub : index.toFinset.filter (·.1 = o) = (index.filter (·.1 = o)).toFinset := by
      ext b
      simp
    rw [hsub]
    calc (index.filter (·.1 = o)).toFinset.card ≤ (index.filter (·.1 = o)).length :=
          List.toFinset_card_le _
      _ = (slice index o).length := (List.length_map _).symm
      _ = (keys o).length := (h.perm o).length_eq
      _ ≤ n := hn o
  have howners' : index.toFinset.image (·.1) ⊆ owners.toFinset := by
    intro o ho
    obtain ⟨⟨p, i⟩, hmem, rfl⟩ := Finset.mem_image.mp ho
    exact List.mem_toFinset.mpr (howners p i (h.mem.mp (List.mem_toFinset.mp hmem)))
  calc index.length = index.toFinset.card := (List.toFinset_card_of_nodup h.nodup_index).symm
    _ ≤ n * (index.toFinset.image (·.1)).card := hcard
    _ ≤ n * owners.length :=
        Nat.mul_le_mul_left n ((Finset.card_le_card howners').trans (List.toFinset_card_le _))

end Indexes

end Eggtunnel
