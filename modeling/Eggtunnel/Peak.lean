/-
Eggtunnel/Peak.lean

High-water marks of gauges, independent of any particular program.

A run goes through the states of its beginnings (`Reached`).  A mark is right
if it is the greatest value that its gauge has had in one of them
(`HighWater`), and it stays so as long as every step leaves it at the larger
one of itself and the new gauge (`highWater_of_rises`).

A gauge may be an atomic counter that wraps.  `Metered` is what then holds
between the number it counts, its value and its mark: before the value wraps
for the first time, the mark has reached the largest value there is.  `Counts`
says so of a gauge that may count more than it has to.
-/
import Eggtunnel.Run
import Eggtunnel.Atomic
import Mathlib.Data.List.Induction
import Mathlib.Order.Bounds.Basic

namespace Eggtunnel

variable {σ : Type*} {ε : Type*} {step : σ → ε → Option σ} {C : σ → ε → Prop} {Inv : σ → Prop}
  {gauge mark : σ → Nat}

/-! ### Marks over schedules -/

/-- The states that a run of `es` from `s` goes through. -/
def Reached (step : σ → ε → Option σ) (s : σ) (es : List ε) : Set σ :=
  {u | ∃ fs, fs <+: es ∧ exec step s fs = some u}

theorem mem_reached_self {s t : σ} {es : List ε} (h : exec step s es = some t) :
    t ∈ Reached step s es := ⟨es, List.prefix_rfl, h⟩

/-- One more step goes through one more state. -/
theorem reached_concat {s t u : σ} {e : ε} {es : List ε} (hrun : exec step s es = some t)
    (hstep : step t e = some u) :
    Reached step s (es ++ [e]) = insert u (Reached step s es) := by
  ext v
  constructor
  · rintro ⟨fs, hfs, hv⟩
    rcases List.prefix_concat_iff.mp hfs with rfl | hfs
    · obtain ⟨t', ht', hu⟩ := exec_concat_eq_some.mp hv
      obtain rfl := Option.some.inj (hrun.symm.trans ht')
      exact .inl (Option.some.inj (hu.symm.trans hstep))
    · exact .inr ⟨fs, hfs, hv⟩
  · rintro (rfl | ⟨fs, hfs, hv⟩)
    · exact mem_reached_self (exec_concat_eq_some.mpr ⟨t, hrun, hstep⟩)
    · exact ⟨fs, hfs.trans (List.prefix_append _ _), hv⟩

/-- The mark is at least the gauge, and the greatest value it has had. -/
structure HighWater (step : σ → ε → Option σ) (gauge mark : σ → Nat) (s : σ) (es : List ε)
    (t : σ) : Prop where
  covers : gauge t ≤ mark t
  greatest : IsGreatest (gauge '' Reached step s es) (mark t)

/-- A step that raises the mark to the new gauge, if it is larger. -/
theorem HighWater.concat {s t u : σ} {e : ε} {es : List ε} (h : HighWater step gauge mark s es t)
    (hrun : exec step s es = some t) (hstep : step t e = some u)
    (hrises : mark u = max (mark t) (gauge u)) : HighWater step gauge mark s (es ++ [e]) u := by
  refine ⟨hrises ▸ le_max_right _ _, ?_⟩
  rw [reached_concat hrun hstep, Set.image_insert_eq, hrises, max_comm]
  exact h.greatest.insert (gauge u)

/-- A gauge that does not rise leaves its mark where it is. -/
theorem rises_of_le {gauge gauge' mark mark' : Nat} (hmark : mark' = mark)
    (hle : gauge' ≤ gauge) (hcovers : gauge ≤ mark) : mark' = max mark gauge' := by
  rw [hmark, max_eq_left (hle.trans hcovers)]

/-- **The rule for marks.**  A mark that starts at its gauge, and that every
step leaves at the larger one of itself and the new gauge, is right throughout
a run. -/
theorem highWater_of_rises (hinv : ∀ s e t, Inv s → C s e → step s e = some t → Inv t)
    (hrises : ∀ s e t, Inv s → C s e → gauge s ≤ mark s → step s e = some t →
      mark t = max (mark s) (gauge t))
    {s t : σ} {es : List ε} (h0 : Inv s) (hinit : mark s = gauge s)
    (hC : AllSteps step C s es) (hrun : exec step s es = some t) :
    HighWater step gauge mark s es t := by
  induction es using List.reverseRecOn generalizing t with
  | nil =>
      obtain rfl := Option.some.inj hrun
      refine ⟨hinit.ge, ⟨s, mem_reached_self hrun, hinit.symm⟩, ?_⟩
      rintro n ⟨u, ⟨fs, hfs, hu⟩, rfl⟩
      obtain rfl := List.prefix_nil.mp hfs
      obtain rfl := Option.some.inj hu
      exact hinit.ge
  | append_singleton es e ih =>
      obtain ⟨u, hu, hstep⟩ := exec_concat_eq_some.mp hrun
      have hhigh := ih hC.of_append hu
      have hcond := hC.last hu
      exact hhigh.concat hu hstep
        (hrises u e t (exec_inv hinv h0 hC.of_append hu) hcond hhigh.covers hstep)

/-- A condition that holds at the end of every beginning holds at every step. -/
theorem allSteps_of_prefixes {s t : σ} {es : List ε} (hrun : exec step s es = some t)
    (h : ∀ fs e u v, fs ++ [e] <+: es → exec step s fs = some u → step u e = some v → C u e) :
    AllSteps step C s es := by
  induction es generalizing s with
  | nil => trivial
  | cons e es ih =>
      obtain ⟨u, hu, hrest⟩ := exec_cons_eq_some.mp hrun
      refine ⟨h [] e s u ⟨es, rfl⟩ rfl hu, ?_⟩
      rw [hu]
      refine ih hrest fun fs e' v w hfs hv hw => ?_
      refine h (e :: fs) e' v w ?_ (exec_cons_eq_some.mpr ⟨u, hu, hv⟩) hw
      exact (List.prefix_cons_inj e).mpr hfs

/-! ### Counters that wrap -/

/-- `gauge` counts `count` in a machine word, and `mark` is its mark. -/
structure Metered (count gauge mark : Nat) : Prop where
  gauge : gauge = count % usizeValues
  mark : min count (usizeValues - 1) ≤ mark

namespace Metered

variable {count gauge mark : Nat}

theorem usizeValues_pos : 0 < usizeValues := by
  show 0 < 2 ^ 64
  decide

theorem zero (mark : Nat) : Metered 0 0 mark := ⟨rfl, by simp⟩

/-- Whatever the gauge has wrapped to, it was as high before. -/
theorem covers (h : Metered count gauge mark) : gauge ≤ mark := by
  refine le_trans (le_min ?_ ?_) h.mark
  · exact h.gauge ▸ Nat.mod_le _ _
  · exact Nat.le_sub_one_of_lt (h.gauge ▸ Nat.mod_lt _ usizeValues_pos)

theorem add (h : Metered count gauge mark) :
    Metered (count + 1) (fetchAdd gauge 1) (max mark (fetchAdd gauge 1)) := by
  have hgauge : fetchAdd gauge 1 = (count + 1) % usizeValues := by
    rw [h.gauge, fetchAdd_mod]
  refine ⟨hgauge, ?_⟩
  have hmark := h.mark
  rcases Nat.lt_or_ge (count + 1) usizeValues with hlt | hge
  · rw [hgauge, Nat.mod_eq_of_lt hlt]
    exact le_trans (min_le_left _ _) (le_max_right _ _)
  · refine le_trans ?_ (le_max_left _ _)
    omega

theorem sub (h : Metered (count + 1) gauge mark) : Metered count (fetchSub gauge 1) mark where
  gauge := by
    rw [h.gauge, fetchSub]
    show (2 ^ 64 + (count + 1) % 2 ^ 64 - 1) % 2 ^ 64 = count % 2 ^ 64
    omega
  mark := by
    have hmark := h.mark
    omega

/-- Any number may be taken off at once. -/
theorem drop {k : Nat} (h : Metered count gauge mark) (hk : k ≤ count) :
    Metered (fetchSub gauge k) (fetchSub gauge k) mark := by
  have hlt : fetchSub gauge k < usizeValues := by
    rw [fetchSub]
    exact Nat.mod_lt _ usizeValues_pos
  refine ⟨(Nat.mod_eq_of_lt hlt).symm, (min_le_left _ _).trans ?_⟩
  rcases Nat.lt_or_ge gauge k with hgt | hle
  · -- the gauge has wrapped, so the mark is as high as can be
    have hwrapped : usizeValues ≤ count := by
      by_contra hnot
      have hgauge := h.gauge
      rw [Nat.mod_eq_of_lt (Nat.not_le.mp hnot)] at hgauge
      omega
    have hmark := h.mark
    omega
  · refine le_trans ?_ h.covers
    have hgauge : gauge < usizeValues := h.gauge ▸ Nat.mod_lt _ usizeValues_pos
    rw [fetchSub_of_le hgauge hle]
    exact Nat.sub_le _ _

end Metered

/-- The gauge counts `n` things, and perhaps more. -/
def Counts (n gauge mark : Nat) : Prop := ∃ count, n ≤ count ∧ Metered count gauge mark

namespace Counts

variable {n gauge mark : Nat}

theorem zero (mark : Nat) : Counts 0 0 mark := ⟨0, le_rfl, .zero mark⟩

theorem covers (h : Counts n gauge mark) : gauge ≤ mark := by
  obtain ⟨count, -, hmetered⟩ := h
  exact hmetered.covers

theorem mono {m : Nat} (h : Counts n gauge mark) (hle : m ≤ n) : Counts m gauge mark := by
  obtain ⟨count, hcount, hmetered⟩ := h
  exact ⟨count, hle.trans hcount, hmetered⟩

theorem add (h : Counts n gauge mark) :
    Counts (n + 1) (fetchAdd gauge 1) (max mark (fetchAdd gauge 1)) := by
  obtain ⟨count, hcount, hmetered⟩ := h
  exact ⟨count + 1, Nat.succ_le_succ hcount, hmetered.add⟩

theorem sub (h : Counts (n + 1) gauge mark) : Counts n (fetchSub gauge 1) mark := by
  obtain ⟨count, hcount, hmetered⟩ := h
  obtain ⟨m, rfl⟩ : ∃ m, count = m + 1 := ⟨count - 1, by omega⟩
  exact ⟨m, Nat.le_of_succ_le_succ hcount, hmetered.sub⟩

theorem drop (h : Counts n gauge mark) : Counts 0 (fetchSub gauge n) mark := by
  obtain ⟨count, hcount, hmetered⟩ := h
  exact ⟨_, Nat.zero_le _, hmetered.drop hcount⟩

end Counts

end Eggtunnel
