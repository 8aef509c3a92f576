/-
Eggtunnel/Window.lean

Sliding windows over a list of times, independent of any particular program.

Times are kept oldest first.  A history is shortened in two ways: what has left
the window goes from the front, and no more than the last `n` entries are kept.
Sorted times leave a window front first, so the first is a `filter`
(`dropWhile_eq_filter`), and the two commute (`filter_rtake`); a history that
was cut again and again is the cut of the whole one.
-/
import Mathlib.Data.List.DropRight

namespace Eggtunnel

variable {α : Type*} {R : α → α → Prop} {p q : α → Bool} {l : List α}

/-- A later look drops what an earlier one has dropped. -/
theorem dropWhile_dropWhile (hpq : ∀ a, p a = true → q a = true) (l : List α) :
    (l.dropWhile p).dropWhile q = l.dropWhile q := by
  induction l with
  | nil => rfl
  | cons a l ih =>
      by_cases ha : p a = true
      · rw [List.dropWhile_cons_of_pos ha, List.dropWhile_cons_of_pos (hpq a ha), ih]
      · rw [List.dropWhile_cons_of_neg ha]

/-- What leaves in order leaves from the front. -/
theorem dropWhile_eq_filter (hl : l.Pairwise R)
    (hp : ∀ a b, R a b → p b = true → p a = true) : l.dropWhile p = l.filter (!p ·) := by
  induction hl with
  | nil => rfl
  | @cons a l hfirst _ ih =>
      by_cases ha : p a = true
      · rw [List.dropWhile_cons_of_pos ha, ih, List.filter_cons_of_neg (by simp [ha])]
      · -- the first stays, and so do all behind it
        have hrest : ∀ b ∈ l, (!p b) = true := by
          intro b hb
          rw [Bool.not_eq_true', ← Bool.not_eq_true]
          exact fun hpb => ha (hp a b (hfirst b hb) hpb)
        rw [List.dropWhile_cons_of_neg ha, List.filter_cons_of_pos (by simp [ha]),
          List.filter_eq_self.mpr hrest]

/-- The last `n` of what is in the window, or what is in the window of the last
`n`. -/
theorem filter_rtake (hl : l.Pairwise R) (hp : ∀ a b, R a b → p a = true → p b = true) (n : ℕ) :
    (l.rtake n).filter p = (l.filter p).rtake n := by
  induction l using List.reverseRecOn generalizing n with
  | nil => simp
  | append_singleton l a ih =>
      obtain ⟨hl, -, hlast⟩ := List.pairwise_append.mp hl
      rcases n with - | n
      · simp
      · rw [List.rtake_concat_succ, List.filter_append, List.filter_append, ih hl]
        by_cases ha : p a = true
        · rw [List.filter_cons_of_pos ha, List.filter_nil, List.rtake_concat_succ]
        · have hnone : l.filter p = [] := by
            rw [List.filter_eq_nil_iff]
            exact fun b hb hpb => ha (hp b a (hlast b hb a List.mem_cons_self) hpb)
          rw [hnone, List.filter_cons_of_neg ha]
          simp

/-- A history that was cut before goes on as the whole one. -/
theorem rtake_append_rtake (l m : List α) (n : ℕ) : (l.rtake n ++ m).rtake n = (l ++ m).rtake n := by
  simp only [List.rtake_eq_reverse_take_reverse, List.reverse_append, List.reverse_reverse,
    List.take_append, List.take_take, List.length_reverse]
  rw [min_eq_left (Nat.sub_le n m.length)]

theorem length_rtake (l : List α) (n : ℕ) : (l.rtake n).length = min n l.length := by
  rw [List.rtake, List.length_drop]
  omega

end Eggtunnel
