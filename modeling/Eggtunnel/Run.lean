/-
Eggtunnel/Run.lean

Event-driven machines, independent of any particular program.

A machine is a partial step function `step : σ → ε → Option σ`; an event that
is not enabled in a state gives `none`.  A schedule is a list of events, and
`exec` runs it.  `AllSteps` says that every step of a schedule meets a
condition on the event and on the state *before* the step, which is the form
in which most theorems about interleavings are stated here:

    every schedule whose steps all meet `C` keeps the invariant (`exec_inv`).

Since a schedule is an arbitrary list, "every reachable state" is "every
result of `exec`", and the prefixes of a schedule are schedules again.
-/
import Mathlib.Data.List.Basic

namespace Eggtunnel

variable {σ : Type*} {ε : Type*}

/-! ### Schedules -/

/-- Run a schedule; `none` when one of its events is not enabled. -/
def exec (step : σ → ε → Option σ) : σ → List ε → Option σ
  | s, [] => some s
  | s, e :: es => (step s e).bind fun t => exec step t es

/-- Every step of the schedule meets `C` in the state it is taken from. -/
def AllSteps (step : σ → ε → Option σ) (C : σ → ε → Prop) : σ → List ε → Prop
  | _, [] => True
  | s, e :: es => C s e ∧
      match step s e with
      | some t => AllSteps step C t es
      | none => True

variable {step : σ → ε → Option σ} {C : σ → ε → Prop} {Inv : σ → Prop}

instance AllSteps.decidable [∀ s e, Decidable (C s e)] (s : σ) (es : List ε) :
    Decidable (AllSteps step C s es) :=
  match es with
  | [] => isTrue trivial
  | e :: es =>
      have : Decidable (match step s e with
          | some t => AllSteps step C t es
          | none => True) :=
        match step s e with
        | some t => AllSteps.decidable t es
        | none => isTrue trivial
      inferInstanceAs (Decidable (_ ∧ _))

theorem AllSteps.head {s : σ} {e : ε} {es : List ε} (h : AllSteps step C s (e :: es)) :
    C s e := h.1

theorem AllSteps.tail {s t : σ} {e : ε} {es : List ε} (h : AllSteps step C s (e :: es))
    (hs : step s e = some t) : AllSteps step C t es := by
  have h2 := h.2
  rw [hs] at h2
  exact h2

/-- A condition on every step of a schedule is one on every step of its
beginning. -/
theorem AllSteps.of_append {s : σ} {es fs : List ε} (h : AllSteps step C s (es ++ fs)) :
    AllSteps step C s es := by
  induction es generalizing s with
  | nil => trivial
  | cons e es ih =>
      refine ⟨h.head, ?_⟩
      split
      · rename_i t ht
        exact ih (h.tail ht)
      · trivial

@[simp] theorem exec_nil (s : σ) : exec step s [] = some s := rfl

theorem exec_cons (s : σ) (e : ε) (es : List ε) :
    exec step s (e :: es) = (step s e).bind fun t => exec step t es := rfl

/-- A successful run of `e :: es` takes the step `e` and then runs `es`. -/
theorem exec_cons_eq_some {s u : σ} {e : ε} {es : List ε} :
    exec step s (e :: es) = some u ↔ ∃ t, step s e = some t ∧ exec step t es = some u := by
  rw [exec_cons, Option.bind_eq_some_iff]

theorem exec_append (s : σ) (es fs : List ε) :
    exec step s (es ++ fs) = (exec step s es).bind fun t => exec step t fs := by
  induction es generalizing s with
  | nil => rfl
  | cons e es ih =>
      rw [List.cons_append, exec_cons, exec_cons, Option.bind_assoc]
      exact congrArg _ (funext ih)

/-- Two schedules, one after the other. -/
theorem exec_trans {s t u : σ} {es fs : List ε} (h : exec step s es = some t)
    (h' : exec step t fs = some u) : exec step s (es ++ fs) = some u := by
  rw [exec_append, h]
  exact h'

theorem exec_concat_eq_some {s u : σ} {e : ε} {es : List ε} :
    exec step s (es ++ [e]) = some u ↔ ∃ t, exec step s es = some t ∧ step t e = some u := by
  simp [exec_append, exec_cons, Option.bind_eq_some_iff]

/-! ### Invariants over schedules -/

/-- **The invariant rule.**  What every step that meets `C` preserves holds
after every schedule whose steps all meet `C`. -/
theorem exec_inv (hstep : ∀ s e t, Inv s → C s e → step s e = some t → Inv t)
    {s t : σ} {es : List ε} (h0 : Inv s) (hC : AllSteps step C s es)
    (hrun : exec step s es = some t) : Inv t := by
  induction es generalizing s with
  | nil =>
      obtain rfl := Option.some.inj hrun
      exact h0
  | cons e es ih =>
      obtain ⟨u, hu, hrest⟩ := exec_cons_eq_some.mp hrun
      exact ih (hstep s e u h0 hC.head hu) (hC.tail hu) hrest

/-- The condition that restricts nothing is met by every schedule. -/
theorem allSteps_of_forall (hC : ∀ s e, C s e) (s : σ) (es : List ε) :
    AllSteps step C s es := by
  induction es generalizing s with
  | nil => trivial
  | cons e es ih =>
      refine ⟨hC s e, ?_⟩
      split
      · exact ih _
      · trivial

/-- The unconditional form of the invariant rule. -/
theorem exec_inv_of_step (hstep : ∀ s e t, Inv s → step s e = some t → Inv t)
    {s t : σ} {es : List ε} (h0 : Inv s) (hrun : exec step s es = some t) : Inv t :=
  exec_inv (C := fun _ _ => True) (fun s e t hi _ hs => hstep s e t hi hs) h0
    (allSteps_of_forall (fun _ _ => trivial) s es) hrun

/-- The condition on the last step of a schedule. -/
theorem AllSteps.last {s t : σ} {e : ε} {es : List ε} (h : AllSteps step C s (es ++ [e]))
    (hrun : exec step s es = some t) : C t e := by
  induction es generalizing s with
  | nil =>
      obtain rfl := Option.some.inj hrun
      exact h.head
  | cons e' es ih =>
      obtain ⟨u, hu, hrest⟩ := exec_cons_eq_some.mp hrun
      exact ih (h.tail hu) hrest

theorem AllSteps.and {D : σ → ε → Prop} {s : σ} {es : List ε} (h : AllSteps step C s es)
    (hD : AllSteps step D s es) : AllSteps step (fun s e => C s e ∧ D s e) s es := by
  induction es generalizing s with
  | nil => trivial
  | cons e es ih =>
      refine ⟨⟨h.head, hD.head⟩, ?_⟩
      split
      · rename_i t ht
        exact ih (h.tail ht) (hD.tail ht)
      · trivial

/-- A schedule meets `D` throughout, or a step that did not has spoiled it for
good. -/
theorem allSteps_or_spoilt {D : σ → ε → Prop} {Spoilt : σ → Prop}
    (hstep : ∀ s e t, Inv s → C s e → step s e = some t → Inv t)
    (hspoils : ∀ s e t, Inv s → C s e → ¬ D s e → step s e = some t → Spoilt t)
    (hstays : ∀ s e t, Inv s → C s e → Spoilt s → step s e = some t → Spoilt t)
    {s t : σ} {es : List ε} (h0 : Inv s) (hC : AllSteps step C s es)
    (hrun : exec step s es = some t) : AllSteps step D s es ∨ Spoilt t := by
  induction es generalizing s with
  | nil => exact .inl trivial
  | cons e es ih =>
      obtain ⟨u, hu, hrest⟩ := exec_cons_eq_some.mp hrun
      have hinv := hstep s e u h0 hC.head hu
      by_cases hD : D s e
      · refine (ih hinv (hC.tail hu) hrest).imp (fun h => ⟨hD, ?_⟩) id
        rw [hu]
        exact h
      · have hspoilt := hspoils s e u h0 hC.head hD hu
        have hboth : ∀ s e t, Inv s ∧ Spoilt s → C s e → step s e = some t → Inv t ∧ Spoilt t :=
          fun s e t hs hcond h => ⟨hstep s e t hs.1 hcond h, hstays s e t hs.1 hcond hs.2 h⟩
        exact .inr (exec_inv hboth ⟨hinv, hspoilt⟩ (hC.tail hu) hrest).2

/-! ### Where a state came from -/

/-- What holds at the end of a schedule and not at its beginning came about in
one of its steps. -/
theorem exec_origin {P : σ → Prop} {s t : σ} {es : List ε} (h0 : ¬ P s)
    (hrun : exec step s es = some t) (ht : P t) :
    ∃ (es₁ : List ε) (e : ε) (es₂ : List ε) (u v : σ), es = es₁ ++ e :: es₂ ∧
      exec step s es₁ = some u ∧ step u e = some v ∧ ¬ P u ∧ P v ∧ exec step v es₂ = some t := by
  induction es generalizing s with
  | nil =>
      obtain rfl := Option.some.inj hrun
      exact absurd ht h0
  | cons e es ih =>
      obtain ⟨u, hu, hrest⟩ := exec_cons_eq_some.mp hrun
      by_cases hPu : P u
      · exact ⟨[], e, es, s, u, rfl, rfl, hu, h0, hPu, hrest⟩
      · obtain ⟨es₁, e', es₂, a, b, rfl, ha, hab, hPa, hPb, hb⟩ := ih hPu hrest
        exact ⟨e :: es₁, e', es₂, a, b, rfl, exec_cons_eq_some.mpr ⟨u, hu, ha⟩, hab, hPa, hPb, hb⟩

end Eggtunnel
