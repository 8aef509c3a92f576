/-
Eggtunnel/Fallible.lean

Computations that can fail, independent of any particular program.

A computation `Except ε α` is a sequence of checks and of calls that can fail,
and stops at the first that does (`bind_eq_ok`).

`Twin R x y` relates two runs of such a computation on different inputs: they
fail alike, with the same error, or both succeed with values related by `R`.
Runs that are related step by step are related as a whole (`Twin.bind`), and
what is computed from related values without looking at the difference is the
same in both (`Twin.map_eq`).  An error message that two runs share says nothing
about the input in which they differ.
-/
import Mathlib.Data.List.Basic

namespace Eggtunnel

namespace Fallible

universe u

variable {ε : Type*} {α β γ δ : Type u}

/-! ### Checks -/

/-- A check: it stops the computation if it does not hold. -/
def require (holds : Bool) (e : ε) : Except ε Unit := if holds then .ok () else .error e

theorem require_eq_ok {holds : Bool} {e : ε} : require holds e = .ok () ↔ holds = true := by
  cases holds <;> simp [require]

theorem bind_eq_ok {x : Except ε α} {f : α → Except ε β} {b : β} :
    (x >>= f) = .ok b ↔ ∃ a, x = .ok a ∧ f a = .ok b := by
  cases x with
  | error e =>
      constructor
      · intro h
        cases h
      · rintro ⟨a, ha, -⟩
        cases ha
  | ok a =>
      constructor
      · intro h
        exact ⟨a, rfl, h⟩
      · rintro ⟨a', ha', h⟩
        cases ha'
        exact h

theorem require_bind (holds : Bool) (e : ε) {γ : Type} (f : Unit → Except ε γ) :
    (require holds e >>= f) = if holds then f () else .error e := by
  cases holds <;> rfl

theorem ok_bind (a : α) (f : α → Except ε β) : (Except.ok a >>= f) = f a := rfl

/-! ### Two runs -/

/-- The runs fail with the same error, or both succeed, with related values. -/
inductive Twin (R : α → β → Prop) : Except ε α → Except ε β → Prop
  | error (e : ε) : Twin R (.error e) (.error e)
  | ok {a : α} {b : β} (h : R a b) : Twin R (.ok a) (.ok b)

variable {R : α → β → Prop} {S : γ → δ → Prop} {x : Except ε α} {y : Except ε β}

theorem Twin.refl (x : Except ε α) : Twin Eq x x := by
  cases x with
  | error e => exact .error e
  | ok a => exact .ok rfl

theorem Twin.eq {x y : Except ε α} (h : Twin Eq x y) : x = y := by
  cases h with
  | error e => rfl
  | ok h => rw [h]

theorem Twin.mono {R' : α → β → Prop} (h : Twin R x y) (hR : ∀ a b, R a b → R' a b) :
    Twin R' x y := by
  cases h with
  | error e => exact .error e
  | ok h => exact .ok (hR _ _ h)

theorem Twin.mapError {ε' : Type*} (f : ε → ε') (h : Twin R x y) :
    Twin R (x.mapError f) (y.mapError f) := by
  cases h with
  | error e => exact .error (f e)
  | ok h => exact .ok h

/-- **Runs that are alike step by step are alike.** -/
theorem Twin.bind {f : α → Except ε γ} {g : β → Except ε δ} (h : Twin R x y)
    (hf : ∀ a b, R a b → Twin S (f a) (g b)) : Twin S (x >>= f) (y >>= g) := by
  cases h with
  | error e => exact .error e
  | ok h => exact hf _ _ h

theorem Twin.map {f : α → γ} {g : β → δ} (h : Twin R x y) (hf : ∀ a b, R a b → S (f a) (g b)) :
    Twin S (x.map f) (y.map g) := by
  cases h with
  | error e => exact .error e
  | ok h => exact .ok (hf _ _ h)

/-- A step that is the same in both runs. -/
theorem Twin.bind_same {z : Except ε α} {f : α → Except ε γ} {g : α → Except ε δ}
    (hf : ∀ a, Twin S (f a) (g a)) : Twin S (z >>= f) (z >>= g) :=
  (Twin.refl z).bind fun a _ h => h ▸ hf a

/-- What does not depend on the difference is the same. -/
theorem Twin.map_eq {f : α → γ} {g : β → γ} (h : Twin R x y) (hf : ∀ a b, R a b → f a = g b) :
    x.map f = y.map g :=
  (h.map hf).eq

end Fallible

end Eggtunnel
