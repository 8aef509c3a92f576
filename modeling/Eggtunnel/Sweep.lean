/-
Eggtunnel/Sweep.lean

Calling on everybody once, independent of any particular program.

A sweep makes passes over a roster that changes in the meantime.  Each pass goes
through a snapshot of the roster, in any order, and skips those whose key is
noted already, so that nobody is called on twice.  Whoever was on some snapshot
has been called on as soon as the pass is through (`Tracks.noted_of_seen`).
-/
import Mathlib.Data.List.Basic

namespace Eggtunnel

/-- `todo` is the rest of the current pass, `noted` the keys of those called on,
and `seen` everybody who has been on a snapshot. -/
structure Sweep (α κ : Type) where
  todo : List α
  noted : List κ
  seen : List α

namespace Sweep

variable {α κ : Type}

/-- Nothing to visit and nothing visited. -/
def empty : Sweep α κ := ⟨[], [], []⟩

/-- A pass begins. -/
def start (s : Sweep α κ) (roster : List α) : Sweep α κ :=
  { s with todo := roster, seen := s.seen ++ roster }

section Calls

variable [DecidableEq α] [DecidableEq κ] (key : α → κ)

/-- `x` has had its turn. -/
def call (s : Sweep α κ) (x : α) : Sweep α κ :=
  { s with
    todo := s.todo.erase x
    noted := if key x ∈ s.noted then s.noted else key x :: s.noted }

variable {key}

theorem mem_noted_call {s : Sweep α κ} {x : α} {i : κ} :
    i ∈ (s.call key x).noted ↔ i = key x ∨ i ∈ s.noted := by
  unfold call
  dsimp only
  split_ifs with hnoted
  · refine ⟨.inr, ?_⟩
    rintro (rfl | hi)
    · exact hnoted
    · exact hi
  · exact List.mem_cons

end Calls

/-- Everybody seen has been called on, or is still to come, and nobody else has
been called on. -/
structure Tracks (key : α → κ) (s : Sweep α κ) : Prop where
  todo : ∀ x ∈ s.todo, x ∈ s.seen
  noted : ∀ i ∈ s.noted, ∃ x ∈ s.seen, key x = i
  covered : ∀ x ∈ s.seen, key x ∈ s.noted ∨ x ∈ s.todo

variable {key : α → κ} {s : Sweep α κ}

theorem Tracks.empty : Tracks key (empty : Sweep α κ) := by
  constructor <;> exact nofun

/-- A pass that begins after the last one is through. -/
theorem Tracks.start (hs : Tracks key s) (htodo : s.todo = []) (roster : List α) :
    Tracks key (s.start roster) where
  todo x hx := List.mem_append_right _ hx
  noted i hi := by
    obtain ⟨x, hx, hkey⟩ := hs.noted i hi
    exact ⟨x, List.mem_append_left _ hx, hkey⟩
  covered x hx := by
    rcases List.mem_append.mp hx with hold | hnew
    · rcases hs.covered x hold with hnoted | hmem
      · exact .inl hnoted
      · rw [htodo] at hmem
        cases hmem
    · exact .inr hnew

theorem Tracks.call [DecidableEq α] [DecidableEq κ] (hs : Tracks key s) {x : α}
    (hx : x ∈ s.todo) : Tracks key (s.call key x) where
  todo y hy := hs.todo y (List.mem_of_mem_erase hy)
  noted i hi := by
    rcases mem_noted_call.mp hi with rfl | hold
    · exact ⟨x, hs.todo x hx, rfl⟩
    · exact hs.noted i hold
  covered y hy := by
    by_cases hyx : y = x
    · exact .inl (mem_noted_call.mpr (.inl (congrArg key hyx)))
    · refine (hs.covered y hy).imp (fun hnoted => mem_noted_call.mpr (.inr hnoted)) fun hmem => ?_
      exact (List.mem_erase_of_ne hyx).mpr hmem

/-- **Between two passes** everybody seen so far has been called on. -/
theorem Tracks.noted_of_seen (hs : Tracks key s) (htodo : s.todo = []) {x : α}
    (hx : x ∈ s.seen) : key x ∈ s.noted := by
  rcases hs.covered x hx with hnoted | hmem
  · exact hnoted
  · rw [htodo] at hmem
    cases hmem

end Sweep

end Eggtunnel
