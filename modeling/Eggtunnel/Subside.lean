/-
Eggtunnel/Subside.lean

Machines that come to rest, independent of any particular program.

Some of the steps of a machine only work off what is there: `C s e` says which.
If each of them makes the state lighter, and one of them can be taken as long
as the state is not at rest, then a machine that takes no other steps comes to
rest, whatever the order in which it takes them:

    no such schedule is longer than the weight of the state (`length_le`),
    one that cannot go on ends at rest (`rest_of_stuck`),
    and there is one that ends at rest (`reaches_rest`).
-/
import Eggtunnel.Run

namespace Eggtunnel

variable {σ : Type*} {ε : Type*}

/-- The steps that meet `C` bring a state that meets `Inv` to rest. -/
structure Subsides (step : σ → ε → Option σ) (C : σ → ε → Prop) (Inv Rest : σ → Prop)
    (weight : σ → Nat) : Prop where
  keeps : ∀ s e t, Inv s → C s e → step s e = some t → Inv t
  lowers : ∀ s e t, Inv s → C s e → step s e = some t → weight t < weight s
  moves : ∀ s, Inv s → ¬ Rest s → ∃ e, C s e ∧ (step s e).isSome = true

namespace Subsides

variable {step : σ → ε → Option σ} {C : σ → ε → Prop} {Inv Rest : σ → Prop} {weight : σ → Nat}
  {s t : σ} {es : List ε}

/-- **A schedule of such steps is no longer than what it takes off.** -/
theorem length_le (h : Subsides step C Inv Rest weight) (hs : Inv s)
    (hC : AllSteps step C s es) (hrun : exec step s es = some t) :
    es.length + weight t ≤ weight s := by
  induction es generalizing s with
  | nil =>
      obtain rfl := Option.some.inj hrun
      exact Nat.le_of_eq (Nat.zero_add _)
  | cons e es ih =>
      obtain ⟨u, hu, hrest⟩ := exec_cons_eq_some.mp hrun
      have hlower := h.lowers s e u hs hC.head hu
      have hlength := ih (h.keeps s e u hs hC.head hu) (hC.tail hu) hrest
      rw [List.length_cons]
      omega

/-- A schedule of such steps after which none is left has come to rest. -/
theorem rest_of_stuck (h : Subsides step C Inv Rest weight) (hs : Inv s)
    (hC : AllSteps step C s es) (hrun : exec step s es = some t)
    (hstuck : ∀ e, C t e → step t e = none) : Rest t := by
  by_contra hbusy
  obtain ⟨e, hCe, hmoves⟩ := h.moves t (exec_inv h.keeps hs hC hrun) hbusy
  rw [hstuck e hCe] at hmoves
  cases hmoves

/-- **The machine can be brought to rest.** -/
theorem reaches_rest (h : Subsides step C Inv Rest weight) (hs : Inv s) :
    ∃ es t, AllSteps step C s es ∧ exec step s es = some t ∧ Rest t := by
  induction hw : weight s using Nat.strongRecOn generalizing s with
  | ind w ih =>
      by_cases hrest : Rest s
      · exact ⟨[], s, trivial, rfl, hrest⟩
      · obtain ⟨e, hCe, hmoves⟩ := h.moves s hs hrest
        obtain ⟨u, hu⟩ := Option.isSome_iff_exists.mp hmoves
        obtain ⟨es, t, hC, hrun, ht⟩ :=
          ih (weight u) (hw ▸ h.lowers s e u hs hCe hu) (h.keeps s e u hs hCe hu) rfl
        refine ⟨e :: es, t, ⟨hCe, ?_⟩, exec_cons_eq_some.mpr ⟨u, hu, hrun⟩, ht⟩
        rw [hu]
        exact hC

/-- Fewer steps are enough, if they still move the machine. -/
theorem restrict {D : σ → ε → Prop} {Rest' : σ → Prop} (h : Subsides step C Inv Rest weight)
    (hle : ∀ s e, D s e → C s e)
    (hmoves : ∀ s, Inv s → ¬ Rest' s → ∃ e, D s e ∧ (step s e).isSome = true) :
    Subsides step D Inv Rest' weight where
  keeps s e t hs hD := h.keeps s e t hs (hle s e hD)
  lowers s e t hs hD := h.lowers s e t hs (hle s e hD)
  moves := hmoves

end Subsides

end Eggtunnel
