/-
Eggtunnel/Atomic.lean

Atomic counters of the machine's word size, independent of any particular
program.  Both operations wrap, so a counter is right only as long as nothing
is added beyond the word size and nothing taken off that it does not hold.
-/
import Mathlib.Algebra.Group.Nat.Defs
import Mathlib.Data.Nat.Basic

namespace Eggtunnel

/-- The values of an `AtomicUsize` are below this. -/
def usizeValues : Nat := 2 ^ 64

/-- `fetch_add` on an `AtomicUsize`: it wraps. -/
@[irreducible] def fetchAdd (gauge n : Nat) : Nat := (gauge + n) % usizeValues

/-- `fetch_sub` on an `AtomicUsize`: it wraps. -/
@[irreducible] def fetchSub (gauge n : Nat) : Nat := (usizeValues + gauge - n) % usizeValues

theorem fetchAdd_of_lt {gauge n : Nat} (h : gauge + n < usizeValues) :
    fetchAdd gauge n = gauge + n := by
  rw [fetchAdd, Nat.mod_eq_of_lt h]

/-- A counter that only grows is its total, reduced. -/
theorem fetchAdd_mod (total n : Nat) :
    fetchAdd (total % usizeValues) n = (total + n) % usizeValues := by
  rw [fetchAdd, Nat.mod_add_mod]

/-- Taking off what was added gives what was there, reduced. -/
theorem fetchSub_mod (total n : Nat) (hn : n ≤ usizeValues) :
    fetchSub ((total + n) % usizeValues) n = total % usizeValues := by
  rw [fetchSub]
  unfold usizeValues at hn ⊢
  omega

/-- A decrement by no more than the gauge holds does not wrap. -/
theorem fetchSub_of_le {gauge n : Nat} (hlt : gauge < usizeValues) (hle : n ≤ gauge) :
    fetchSub gauge n = gauge - n := by
  rw [fetchSub, show usizeValues + gauge - n = gauge - n + usizeValues by omega,
    Nat.add_mod_right, Nat.mod_eq_of_lt (by omega)]

end Eggtunnel
