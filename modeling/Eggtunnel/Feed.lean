/-
Eggtunnel/Feed.lean

Readers that decode a growing buffer, independent of any particular format.

`decode` is applied to all that has been read so far, and `waits` says of its
result that more is needed; only then the reader takes a further chunk.

* `Stable` — what has been decided is not changed by more input.  At every read,
  nothing that the reader already held could have been decided
  (`waits_of_isPrefix`, `waits_of_run`).
* a bound on the inputs that `decode` waits on bounds what the reader holds
  (`length_lt_of_run`) and how often it reads (`reads_le_of_run`).
-/
import Eggtunnel.Run
import Mathlib.Algebra.Order.BigOperators.Group.List

namespace Eggtunnel

namespace Feed

variable {α ρ : Type*} (decode : List α → ρ) (waits : ρ → Bool)

/-- The reader takes a chunk if the decoder asks for more. -/
def step (buffer chunk : List α) : Option (List α) :=
  if waits (decode buffer) then some (buffer ++ chunk) else none

/-- What has been decided stays so. -/
def Stable : Prop := ∀ p s, waits (decode p) = false → decode (p ++ s) = decode p

variable {decode waits} {p q : List α} {chunks : List (List α)}

theorem step_eq_some {chunk : List α} (h : step decode waits p chunk = some q) :
    waits (decode p) = true ∧ q = p ++ chunk := by
  rw [step, Option.ite_none_right_eq_some] at h
  exact ⟨h.1, (Option.some.inj h.2).symm⟩

/-- The beginning of what still waits was not decided either. -/
theorem waits_of_isPrefix (hstable : Stable decode waits) (hp : waits (decode p) = true)
    (hq : q <+: p) : waits (decode q) = true := by
  obtain ⟨s, rfl⟩ := hq
  by_contra hdecided
  rw [Bool.not_eq_true] at hdecided
  rw [hstable q s hdecided, hdecided] at hp
  cases hp

theorem buffer_of_run (h : exec (step decode waits) p chunks = some q) :
    q = p ++ chunks.flatten := by
  induction chunks generalizing p with
  | nil =>
      obtain rfl := Option.some.inj h
      exact (List.append_nil p).symm
  | cons chunk chunks ih =>
      obtain ⟨r, hstep, hrest⟩ := exec_cons_eq_some.mp h
      obtain ⟨-, rfl⟩ := step_eq_some hstep
      rw [ih hrest, List.flatten_cons, List.append_assoc]

/-- Before every read the decoder waits. -/
theorem waits_of_run (h : exec (step decode waits) p chunks = some q) {k : Nat}
    (hk : k < chunks.length) : waits (decode (p ++ (chunks.take k).flatten)) = true := by
  induction chunks generalizing p k with
  | nil => cases hk
  | cons chunk chunks ih =>
      obtain ⟨r, hstep, hrest⟩ := exec_cons_eq_some.mp h
      obtain ⟨hwaits, rfl⟩ := step_eq_some hstep
      cases k with
      | zero =>
          rw [List.take_zero, List.flatten_nil, List.append_nil]
          exact hwaits
      | succ k =>
          rw [List.take_succ_cons, List.flatten_cons, ← List.append_assoc]
          exact ih hrest (Nat.lt_of_succ_lt_succ hk)

section Bounded

variable {bound : Nat} (hbound : ∀ p, waits (decode p) = true → p.length < bound)
include hbound

/-- A reader that takes at most `w` at a time holds less than the bound and `w`. -/
theorem length_lt_of_run {w : Nat} (hw : ∀ chunk ∈ chunks, chunk.length ≤ w)
    (hp : p.length < bound + w) (h : exec (step decode waits) p chunks = some q) :
    q.length < bound + w := by
  induction chunks generalizing p with
  | nil =>
      obtain rfl := Option.some.inj h
      exact hp
  | cons chunk chunks ih =>
      obtain ⟨r, hstep, hrest⟩ := exec_cons_eq_some.mp h
      obtain ⟨hwaits, rfl⟩ := step_eq_some hstep
      have hchunk := hw chunk List.mem_cons_self
      have hshort := hbound p hwaits
      refine ih (fun c hc => hw c (List.mem_cons_of_mem chunk hc)) ?_ hrest
      rw [List.length_append]
      omega

/-- A reader that always gets something reads at most as often as the bound
says. -/
theorem reads_le_of_run (hsome : ∀ chunk ∈ chunks, chunk ≠ [])
    (h : exec (step decode waits) p chunks = some q) : chunks.length ≤ bound := by
  by_contra hmore
  rw [not_le] at hmore
  have hlast := hbound _ (waits_of_run h hmore)
  have hgrown : (chunks.take bound).length ≤ (chunks.take bound).flatten.length := by
    rw [List.length_flatten, ← List.length_map (f := List.length)]
    refine List.length_le_sum_of_one_le _ fun n hn => ?_
    obtain ⟨chunk, hchunk, rfl⟩ := List.mem_map.mp hn
    exact List.length_pos_iff.mpr (hsome chunk (List.mem_of_mem_take hchunk))
  rw [List.length_append] at hlast
  rw [List.length_take_of_le hmore.le] at hgrown
  omega

end Bounded

end Feed

end Eggtunnel
