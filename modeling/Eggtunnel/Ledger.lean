/-
Eggtunnel/Ledger.lean

One gauge over many bounded maps, independent of any particular program.

Each book is a finite map of its own; the gauge is an atomic counter that all
of them share.  Whoever changes a book also moves the gauge, and nobody ever
recounts.  As long as every change is one of those below, the gauge is the
number of entries in all books, and no decrement wraps.
-/
import Mathlib.Order.Basic
import Mathlib.Logic.Relation
import Eggtunnel.Atomic
import Eggtunnel.Table

namespace Eggtunnel

/-- The books, and the gauge that counts their entries. -/
structure Ledger (K C V : Type) where
  books : Table K (Table C V)
  gauge : Nat

namespace Ledger

variable {K C V : Type}

/-- The number of entries in all books. -/
def total (l : Ledger K C V) : Nat := l.books.total Table.size

variable [DecidableEq K] {bound : Nat} {l m : Ledger K C V}

/-- One more entry in a book that has room for it. -/
inductive Grow [DecidableEq C] (bound : Nat) (l : Ledger K C V) : Ledger K C V → Prop
  | issue (k : K) (b : Table C V) (c : C) (v : V) (hk : l.books.lookup k = some b)
      (hc : b.lookup c = none) (hroom : b.size < bound) (hword : l.total + 1 < usizeValues) :
      Grow bound l ⟨l.books.insert k (b.insert c v), fetchAdd l.gauge 1⟩

/-- What may happen besides: a new book, the loss of some entries of one book,
and the loss of a whole book. -/
inductive Shrink (l : Ledger K C V) : Ledger K C V → Prop
  | begin (k : K) (hk : l.books.lookup k = none) :
      Shrink l { l with books := l.books.insert k ∅ }
  | withdraw (k : K) (b b' : Table C V) (hk : l.books.lookup k = some b)
      (hsub : b'.entries.Sublist b.entries) :
      Shrink l ⟨l.books.insert k b', fetchSub l.gauge (b.size - b'.size)⟩
  | discard (k : K) (b : Table C V) (hk : l.books.lookup k = some b) :
      Shrink l ⟨l.books.erase k, fetchSub l.gauge b.size⟩

/-- What the moves keep. -/
structure Balanced (bound : Nat) (l : Ledger K C V) : Prop where
  gauge : l.gauge = l.total
  word : l.total < usizeValues
  bounded : ∀ k b, l.books.lookup k = some b → b.size ≤ bound

theorem Balanced.bounded_insert (hl : Balanced bound l) {k : K} {b : Table C V}
    (hb : b.size ≤ bound) (a : K) (c : Table C V)
    (h : (l.books.insert k b).lookup a = some c) : c.size ≤ bound := by
  rw [Table.lookup_insert_eq] at h
  split_ifs at h with hak
  · rwa [← Option.some.inj h]
  · exact hl.bounded a c h

/-- The entry is in the book. -/
def Holds (l : Ledger K C V) [DecidableEq C] (k : K) (c : C) (v : V) : Prop :=
  ∃ b, l.books.lookup k = some b ∧ b.lookup c = some v

/-- **One more entry** moves the gauge up by one. -/
theorem Grow.balanced [DecidableEq C] (h : Grow bound l m) (hl : Balanced bound l) :
    Balanced bound m ∧ m.gauge = l.gauge + 1 := by
  obtain ⟨k, b, c, v, hk, hc, hroom, hword⟩ := h
  have hsize : Table.size (b.insert c v) = b.size + 1 := by
    rw [Table.size_insert, Table.erase_eq_self hc]
  have htotal : Table.total Table.size (l.books.insert k (b.insert c v)) = l.total + 1 := by
    have hreplace := Table.total_replace (f := Table.size) hk (b.insert c v)
    rw [hsize] at hreplace
    rw [total]
    omega
  have hgauge : fetchAdd l.gauge 1 = l.gauge + 1 := fetchAdd_of_lt (by rwa [hl.gauge])
  refine ⟨⟨?_, htotal.trans_lt hword, hl.bounded_insert (hsize.trans_le hroom)⟩, hgauge⟩
  rw [total, htotal, ← hl.gauge]
  exact hgauge

/-- A new entry is the only one. -/
theorem holds_insert [DecidableEq C] {k k' : K} {b : Table C V} {c c' : C} {v v' : V} {gauge : Nat}
    (hk : l.books.lookup k = some b)
    (h : (⟨l.books.insert k (b.insert c v), gauge⟩ : Ledger K C V).Holds k' c' v') :
    l.Holds k' c' v' ∨ (k' = k ∧ c' = c ∧ v' = v) := by
  obtain ⟨b', hb', hv'⟩ := h
  rw [Table.lookup_insert_eq] at hb'
  split_ifs at hb' with hkk
  · obtain rfl := Option.some.inj hb'
    rw [Table.lookup_insert_eq] at hv'
    split_ifs at hv' with hcc
    · exact .inr ⟨hkk, hcc, (Option.some.inj hv').symm⟩
    · exact .inl ⟨b, hkk ▸ hk, hv'⟩
  · exact .inl ⟨b', hb', hv'⟩

/-- **Every other move** takes off the gauge what is lost, and no more than it
holds. -/
theorem Shrink.balanced (h : Shrink l m) (hl : Balanced bound l) :
    Balanced bound m ∧ m.gauge ≤ l.gauge := by
  have hword : l.gauge < usizeValues := hl.gauge ▸ hl.word
  cases h with
  | begin k hk =>
      have htotal : Table.total Table.size (l.books.insert k ∅) = l.total := by
        rw [Table.total_insert, Table.erase_eq_self hk]
        exact Nat.zero_add _
      exact ⟨⟨hl.gauge.trans htotal.symm, htotal.trans_lt hl.word,
        hl.bounded_insert (Nat.zero_le _)⟩, le_rfl⟩
  | withdraw k b b' hk hsub =>
      have hle : b'.size ≤ b.size := hsub.length_le
      have hshare : b.size ≤ l.total := Table.le_total hk
      have hgauge : fetchSub l.gauge (b.size - b'.size) = l.gauge - (b.size - b'.size) :=
        fetchSub_of_le hword (by rw [hl.gauge]; omega)
      have htotal : Table.total Table.size (l.books.insert k b') = l.total - (b.size - b'.size) := by
        have hreplace := Table.total_replace (f := Table.size) hk b'
        rw [total] at hshare ⊢
        omega
      refine ⟨⟨?_, htotal.trans_lt ((Nat.sub_le _ _).trans_lt hl.word),
        hl.bounded_insert (hle.trans (hl.bounded k b hk))⟩, hgauge.trans_le (Nat.sub_le _ _)⟩
      rw [total, htotal, ← hl.gauge]
      exact hgauge
  | discard k b hk =>
      have hgauge : fetchSub l.gauge b.size = l.gauge - b.size :=
        fetchSub_of_le hword (by rw [hl.gauge]; exact Table.le_total hk)
      have htotal : Table.total Table.size (l.books.erase k) = l.total - b.size := by
        rw [total, Table.total_erase hk]
        omega
      refine ⟨⟨?_, htotal.trans_lt ((Nat.sub_le _ _).trans_lt hl.word), fun a c hc => ?_⟩,
        hgauge.trans_le (Nat.sub_le _ _)⟩
      · rw [total, htotal, ← hl.gauge]
        exact hgauge
      · rw [Table.lookup_erase_eq] at hc
        split_ifs at hc
        exact hl.bounded a c hc

/-- The same for any number of moves. -/
theorem Balanced.shrink (hl : Balanced bound l) (h : Relation.ReflTransGen Shrink l m) :
    Balanced bound m ∧ m.gauge ≤ l.gauge := by
  induction h with
  | refl => exact ⟨hl, le_rfl⟩
  | tail _ hmove ih =>
      obtain ⟨hbalanced, hle⟩ := hmove.balanced ih.1
      exact ⟨hbalanced, hle.trans ih.2⟩

/-- No other move adds an entry. -/
theorem Shrink.holds [DecidableEq C] (h : Shrink l m) {k : K} {c : C} {v : V}
    (hm : m.Holds k c v) : l.Holds k c v := by
  obtain ⟨b, hb, hv⟩ := hm
  cases h with
  | begin a ha =>
      rw [Table.lookup_insert_eq] at hb
      split_ifs at hb with hak
      · obtain rfl := Option.some.inj hb
        cases hv
      · exact ⟨b, hb, hv⟩
  | withdraw a old new ha hsub =>
      rw [Table.lookup_insert_eq] at hb
      split_ifs at hb with hak
      · obtain rfl := Option.some.inj hb
        rw [Table.lookup_eq_some_iff] at hv
        exact ⟨old, hak ▸ ha, Table.lookup_eq_some_iff.mpr (hsub.subset hv)⟩
      · exact ⟨b, hb, hv⟩
  | discard a old ha =>
      rw [Table.lookup_erase_eq] at hb
      split_ifs at hb
      exact ⟨b, hb, hv⟩

theorem holds_of_shrinks [DecidableEq C] (h : Relation.ReflTransGen Shrink l m) {k : K} {c : C}
    {v : V} (hm : m.Holds k c v) : l.Holds k c v := by
  induction h with
  | refl => exact hm
  | tail _ hmove ih => exact ih (hmove.holds hm)

end Ledger

end Eggtunnel
