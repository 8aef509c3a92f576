/-
Eggtunnel/Cow.lean

A value shared copy-on-write, independent of any particular program.

The value lives behind a reference-counted pointer.  A lock holds one reference
to the current cell; a reader takes another under the lock, and reads it
whenever it likes.  A writer mutates the current cell in place if its reference
is the only one, and a copy of it otherwise.

So a cell that somebody else refers to never changes:

    what a reader reads is what the value was when it took its reference,

whatever the machine that owns the value does in the meantime (`Published`).
-/
import Eggtunnel.Run
import Eggtunnel.Table

namespace Eggtunnel

/-- The cells, of which those from `next` on have not been used, the reference behind
the lock, and those of the readers. -/
structure Cow (α ρ : Type) where
  mem : Nat → α
  next : Nat
  current : Nat
  held : Table ρ Nat

namespace Cow

variable {α ρ : Type}

/-- One reference, the writer's. -/
def init (v : α) : Cow α ρ := ⟨fun _ => v, 1, 0, ∅⟩

/-- The value behind the lock. -/
def value (s : Cow α ρ) : α := s.mem s.current

/-- A reader refers to the current cell. -/
def isShared (s : Cow α ρ) : Bool := s.held.values.contains s.current

/-- Mutate the value under the lock: in place, or in a copy. -/
def write (s : Cow α ρ) (v : α) : Cow α ρ :=
  if s.isShared then
    { s with mem := Function.update s.mem s.next v, next := s.next + 1, current := s.next }
  else { s with mem := Function.update s.mem s.current v }

theorem value_write (s : Cow α ρ) (v : α) : (s.write v).value = v := by
  unfold Cow.write value
  split_ifs <;> exact Function.update_self ..

variable [DecidableEq ρ]

/-- A reader takes a reference under the lock. -/
def share (s : Cow α ρ) (r : ρ) : Option (Cow α ρ) :=
  match s.held.lookup r with
  | some _ => none
  | none => some { s with held := s.held.insert r s.current }

/-- What a reader finds behind its reference. -/
def read (s : Cow α ρ) (r : ρ) : Option α := (s.held.lookup r).map s.mem

/-- A reader drops its reference. -/
def drop (s : Cow α ρ) (r : ρ) : Option (Cow α ρ) :=
  (s.held.lookup r).map fun _ => { s with held := s.held.erase r }

/-- Only cells that are in use are referred to. -/
structure Fit (s : Cow α ρ) : Prop where
  current : s.current < s.next
  held : ∀ r a, s.held.lookup r = some a → a < s.next

variable {s t : Cow α ρ} {r : ρ}

theorem fit_init (v : α) : Fit (init v : Cow α ρ) := ⟨Nat.one_pos, fun _ _ h => by cases h⟩

theorem Fit.write (h : Fit s) (v : α) : Fit (s.write v) := by
  unfold Cow.write
  split_ifs
  · exact ⟨Nat.lt_succ_self _, fun r a hr => Nat.lt_succ_of_lt (h.held r a hr)⟩
  · exact ⟨h.current, h.held⟩

/-- **A write changes nothing that a reader has taken.** -/
theorem Fit.read_write (h : Fit s) (v : α) (r : ρ) : (s.write v).read r = s.read r := by
  unfold Cow.write
  split_ifs with hshared
  · -- the copy is in a cell that nobody refers to
    refine Option.map_congr fun a ha => ?_
    exact Function.update_of_ne (Nat.ne_of_lt (h.held r a ha)) ..
  · refine Option.map_congr fun a ha => Function.update_of_ne ?_ ..
    rintro rfl
    exact hshared (List.contains_iff_mem.mpr (Table.mem_values.mpr ⟨r, ha⟩))

theorem share_eq_some (h : s.share r = some t) :
    s.read r = none ∧ t = { s with held := s.held.insert r s.current } := by
  unfold share at h
  split at h
  · cases h
  · rename_i hfree
    exact ⟨by rw [read, hfree]; rfl, (Option.some.inj h).symm⟩

theorem Fit.share (h : Fit s) (hshare : s.share r = some t) : Fit t := by
  obtain ⟨-, rfl⟩ := share_eq_some hshare
  refine ⟨h.current, fun r' a hr' => ?_⟩
  rw [Table.lookup_insert_eq] at hr'
  split_ifs at hr'
  · exact Option.some.inj hr' ▸ h.current
  · exact h.held r' a hr'

/-- **A reader takes the value**, and the others keep theirs. -/
theorem read_share (h : s.share r = some t) :
    t.read = Function.update s.read r (some s.value) := by
  obtain ⟨-, rfl⟩ := share_eq_some h
  funext r'
  show ((s.held.insert r s.current).lookup r').map s.mem = _
  rw [Table.lookup_insert_eq]
  by_cases hr' : r' = r
  · rw [if_pos hr', hr', Function.update_self]
    rfl
  · rw [if_neg hr', Function.update_of_ne hr']
    rfl

theorem Fit.drop (h : Fit s) (hdrop : s.drop r = some t) : Fit t := by
  obtain ⟨-, -, rfl⟩ := Option.map_eq_some_iff.mp hdrop
  refine ⟨h.current, fun r' a hr' => ?_⟩
  rw [Table.lookup_erase_eq] at hr'
  split_ifs at hr'
  exact h.held r' a hr'

theorem read_drop (h : s.drop r = some t) : t.read = Function.update s.read r none := by
  obtain ⟨-, -, rfl⟩ := Option.map_eq_some_iff.mp h
  funext r'
  show ((s.held.erase r).lookup r').map s.mem = _
  rw [Table.lookup_erase_eq]
  by_cases hr' : r' = r
  · rw [if_pos hr', hr', Function.update_self]
    rfl
  · rw [if_neg hr', Function.update_of_ne hr']
    rfl

end Cow

/-! ### A machine that publishes a part of its state -/

/-- A machine whose `table` is kept in a `Cow`. -/
structure Published (σ α ρ : Type) where
  inner : σ
  cow : Cow α ρ

/-- A step of the machine, which takes the lock or not, or one of a reader: take a
reference under the lock, or give it up. -/
inductive PublishedEvent (ε ρ : Type)
  | inner (e : ε) (locks : Bool)
  | share (r : ρ)
  | drop (r : ρ)

namespace Published

variable {σ ε α ρ : Type} [DecidableEq α] [DecidableEq ρ] (step : σ → ε → Option σ) (table : σ → α)

/-- The table as it is, without readers. -/
def init (s : σ) : Published σ α ρ := ⟨s, Cow.init (table s)⟩

/-- A step that changes the table writes it under the lock; one that takes the lock may
leave the table as it is. -/
def pstep (p : Published σ α ρ) : PublishedEvent ε ρ → Option (Published σ α ρ)
  | .inner e true => (step p.inner e).map fun t => ⟨t, p.cow.write (table t)⟩
  | .inner e false => (step p.inner e).bind fun t =>
      if table t = table p.inner then some ⟨t, p.cow⟩ else none
  | .share r => (p.cow.share r).map fun cow => { p with cow }
  | .drop r => (p.cow.drop r).map fun cow => { p with cow }

/-- A condition on the steps of the machine. -/
def On (C : σ → ε → Prop) (p : Published σ α ρ) : PublishedEvent ε ρ → Prop
  | .inner e _ => C p.inner e
  | _ => True

/-- What is behind the lock is the table. -/
structure Shows (p : Published σ α ρ) : Prop where
  fit : p.cow.Fit
  value : p.cow.value = table p.inner

/-- What the readers have after a step. -/
def takenAfter (p : Published σ α ρ) : PublishedEvent ε ρ → ρ → Option α
  | .inner _ _ => p.cow.read
  | .share r => Function.update p.cow.read r (some (table p.inner))
  | .drop r => Function.update p.cow.read r none

variable {step table} {p q : Published σ α ρ} {e : PublishedEvent ε ρ}

omit [DecidableEq α] in
theorem shows_init (s : σ) : Shows table (init table s : Published σ α ρ) :=
  ⟨Cow.fit_init _, rfl⟩

/-- What a step does: to the machine, to what is published, and to the readers. -/
theorem of_pstep (h : Shows table p) (hstep : pstep step table p e = some q) :
    (match e with
      | .inner e _ => step p.inner e = some q.inner
      | .share _ | .drop _ => q.inner = p.inner) ∧
    Shows table q ∧ q.cow.read = takenAfter table p e := by
  match e with
  | .inner e true =>
      obtain ⟨t, ht, rfl⟩ := Option.map_eq_some_iff.mp hstep
      exact ⟨ht, ⟨h.fit.write _, Cow.value_write _ _⟩, funext fun r => h.fit.read_write _ r⟩
  | .inner e false =>
      obtain ⟨t, ht, hrest⟩ := Option.bind_eq_some_iff.mp hstep
      obtain ⟨hsame, hq⟩ := Option.ite_none_right_eq_some.mp hrest
      obtain rfl := Option.some.inj hq
      exact ⟨ht, ⟨h.fit, h.value.trans hsame.symm⟩, rfl⟩
  | .share r =>
      obtain ⟨cow, hcow, rfl⟩ := Option.map_eq_some_iff.mp hstep
      obtain ⟨-, rfl⟩ := Cow.share_eq_some hcow
      refine ⟨rfl, ⟨h.fit.share hcow, h.value⟩, ?_⟩
      rw [takenAfter, ← h.value]
      exact Cow.read_share hcow
  | .drop r =>
      obtain ⟨cow, hcow, rfl⟩ := Option.map_eq_some_iff.mp hstep
      refine ⟨rfl, ⟨h.fit.drop hcow, ?_⟩, Cow.read_drop hcow⟩
      obtain ⟨-, -, rfl⟩ := Option.map_eq_some_iff.mp hcow
      exact h.value

/-- **What the machine's steps preserve holds with readers.** -/
theorem inner_of_pstep {Inv : σ → Prop} {C : σ → ε → Prop}
    (hinv : ∀ s e t, Inv s → C s e → step s e = some t → Inv t) (h : Shows table p)
    (hp : Inv p.inner) (hc : On C p e) (hstep : pstep step table p e = some q) : Inv q.inner := by
  have hinner := (of_pstep h hstep).1
  cases e with
  | inner e locks => exact hinv _ _ _ hp hc hinner
  | share r | drop r => exact hinner ▸ hp

/-- **Isolation.**  Whatever happens between a reader's taking its reference and its
giving it up, it reads what the table was when it took it. -/
theorem read_of_shared {r : ρ} (h : Shows table p)
    (hshare : pstep step table p (.share r) = some q) {es : List (PublishedEvent ε ρ)}
    {u : Published σ α ρ} (hrun : exec (pstep step table) q es = some u)
    (hkeeps : ∀ e ∈ es, e ≠ .drop r) : u.cow.read r = some (table p.inner) := by
  obtain ⟨-, hq, hread⟩ := of_pstep h hshare
  have hfirst : q.cow.read r = some (table p.inner) := by
    rw [hread, takenAfter, Function.update_self]
  clear hread hshare
  induction es generalizing q with
  | nil =>
      obtain rfl := Option.some.inj hrun
      exact hfirst
  | cons e es ih =>
      obtain ⟨q', hq', hrest⟩ := exec_cons_eq_some.mp hrun
      obtain ⟨-, hnext, hread⟩ := of_pstep hq hq'
      refine ih hrest (fun e' he' => hkeeps e' (List.mem_cons_of_mem _ he')) hnext ?_
      rw [hread]
      cases e with
      | inner e locks => exact hfirst
      | share r' =>
          have hr : r ≠ r' := by
            rintro rfl
            obtain ⟨cow, hcow, -⟩ := Option.map_eq_some_iff.mp hq'
            rw [(Cow.share_eq_some hcow).1] at hfirst
            cases hfirst
          exact (Function.update_of_ne hr ..).trans hfirst
      | drop r' =>
          have hr : r ≠ r' := fun heq => hkeeps _ List.mem_cons_self (heq ▸ rfl)
          exact (Function.update_of_ne hr ..).trans hfirst

end Published

end Eggtunnel
