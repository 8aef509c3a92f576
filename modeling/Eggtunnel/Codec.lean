/-
Eggtunnel/Codec.lean

Byte codecs in the postcard style, independent of any particular message set.

A `Codec α` bundles an encoder and a decoder with the two laws every use of
them needs:

* `dec_enc` — decoding an encoding followed by anything gives the value back
  and leaves exactly what followed;
* `dec_eq`  — whatever the decoder accepts is a prefix of its input, at least
  as long as the canonical encoding of the decoded value.

`fits` is the side condition that a length fits the 64-bit length field; it
is `True` for everything without a length.

The primitives follow postcard 1.x: integers wider than 8 bits and enum tags
are LEB128 varints with a per-type maximum of bytes (over-long forms inside
that maximum are accepted), strings and sequences carry a varint length,
fixed arrays and structs are plain concatenation.
-/
import Mathlib.Data.List.Basic
import Mathlib.Tactic.Positivity
import Mathlib.Tactic.Ring

namespace Eggtunnel

/-- A byte string. -/
abbrev Bytes := List UInt8

/-! ### Varints -/

/-- The loop of `varint_u16`/`varint_u32`/`varint_u64`, over at most `k`
output bytes. -/
def varintLoop : Nat → Nat → Bytes
  | 0, _ => []
  | k + 1, n =>
      if n < 128 then [UInt8.ofNat n]
      else UInt8.ofNat (n % 128 + 128) :: varintLoop k (n / 128)

/-- The loop of `try_take_varint_*` over at most `k` input bytes; the last
admissible byte may not exceed `last`. -/
def takeVarint (last : Nat) : Nat → Bytes → Option (Nat × Bytes)
  | 0, _ => none
  | _ + 1, [] => none
  | k + 1, b :: rest =>
      if b.toNat < 128 then
        if k = 0 ∧ last < b.toNat then none else some (b.toNat, rest)
      else
        match takeVarint last k rest with
        | some (m, r) => some (b.toNat - 128 + 128 * m, r)
        | none => none

theorem toNat_ofNat_of_lt {n : Nat} (h : n < 256) : (UInt8.ofNat n).toNat = n := by
  rw [UInt8.toNat_ofNat']
  omega

/-- Reading back a varint, whatever follows it. -/
theorem takeVarint_varintLoop {last : Nat} (hlast : last < 128) {k n : Nat} (rest : Bytes)
    (h : n < (last + 1) * 128 ^ k) :
    takeVarint last (k + 1) (varintLoop (k + 1) n ++ rest) = some (n, rest) := by
  induction k generalizing n with
  | zero =>
      have hn : n < last + 1 := by simpa using h
      have hlt : n < 128 := by omega
      have hle : ¬ last < n := by omega
      simp [varintLoop, takeVarint, hlt, toNat_ofNat_of_lt (show n < 256 by omega), hle]
  | succ k ih =>
      by_cases hn : n < 128
      · rw [varintLoop, if_pos hn]
        simp [takeVarint, toNat_ofNat_of_lt (show n < 256 by omega), hn]
      · have hdiv : n / 128 < (last + 1) * 128 ^ k := by
          rw [Nat.div_lt_iff_lt_mul (by decide)]
          rw [Nat.pow_succ, ← Nat.mul_assoc] at h
          exact h
        have hb := toNat_ofNat_of_lt (show n % 128 + 128 < 256 by omega)
        rw [varintLoop, if_neg hn]
        simp only [List.cons_append, takeVarint, hb, ih hdiv]
        rw [if_neg (by omega)]
        simp only [Option.some.injEq, Prod.mk.injEq, and_true]
        omega

/-- What a varint reader accepts is in range and a prefix of its input, no
shorter than the canonical form. -/
theorem takeVarint_eq_some {last k : Nat} {b rest : Bytes} {n : Nat}
    (h : takeVarint last (k + 1) b = some (n, rest)) :
    n < (last + 1) * 128 ^ k ∧
      ∃ p, b = p ++ rest ∧ (varintLoop (k + 1) n).length ≤ p.length := by
  induction k generalizing b n with
  | zero =>
      rcases b with - | ⟨c, tail⟩
      · simp [takeVarint] at h
      · simp only [takeVarint, true_and] at h
        split_ifs at h with hc hl
        obtain ⟨rfl, rfl⟩ := Prod.mk.inj (Option.some.inj h)
        exact ⟨by simpa [Nat.lt_succ_iff] using hl, [c], rfl, by simp [varintLoop, hc]⟩
  | succ k ih =>
      have hpos : 0 < (last + 1) * 128 ^ k := Nat.mul_pos (by omega) (by positivity)
      have hpow : (last + 1) * 128 ^ (k + 1) = 128 * ((last + 1) * 128 ^ k) := by ring
      rcases b with - | ⟨c, tail⟩
      · simp [takeVarint] at h
      · rw [takeVarint] at h
        split_ifs at h with hc
        · obtain ⟨rfl, rfl⟩ := Prod.mk.inj (Option.some.inj h)
          exact ⟨by omega, [c], rfl, by simp [varintLoop, hc]⟩
        · rcases e : takeVarint last (k + 1) tail with - | ⟨m, r⟩
          · simp [e] at h
          · simp only [e] at h
            obtain ⟨rfl, rfl⟩ := Prod.mk.inj (Option.some.inj h)
            obtain ⟨hm, p, rfl, hp⟩ := ih e
            have hc' := c.toNat_lt
            refine ⟨by omega, c :: p, rfl, ?_⟩
            -- a short value may have come in an over-long form
            rw [varintLoop]
            split_ifs with hs
            · simp
            · rw [show (c.toNat - 128 + 128 * m) / 128 = m by omega]
              simpa using hp

/-- A larger value never has a shorter varint. -/
theorem length_varintLoop_mono {k m n : Nat} (h : m ≤ n) :
    (varintLoop k m).length ≤ (varintLoop k n).length := by
  induction k generalizing m n with
  | zero => rfl
  | succ k ih =>
      rw [varintLoop, varintLoop]
      split_ifs with hm hn
      · rfl
      · simp
      · exact absurd (h.trans_lt ‹n < 128›) hm
      · simpa using ih (Nat.div_le_div_right h)

theorem length_varintLoop_le (k n : Nat) : (varintLoop k n).length ≤ k := by
  induction k generalizing n with
  | zero => rfl
  | succ k ih =>
      rw [varintLoop]
      split_ifs
      · simp
      · simpa using ih (n / 128)

/-! ### Codecs -/

/-- An encoder and a decoder with their laws. -/
structure Codec (α : Type*) where
  enc : α → Bytes
  dec : Bytes → Option (α × Bytes)
  fits : α → Prop
  dec_enc : ∀ {a : α} (rest : Bytes), fits a → dec (enc a ++ rest) = some (a, rest)
  dec_eq : ∀ {b rest : Bytes} {a : α}, dec b = some (a, rest) →
    fits a ∧ ∃ p, b = p ++ rest ∧ (enc a).length ≤ p.length

namespace Codec

variable {α β : Type*}

/-- Integers of one fixed width as varints of at most `k + 1` bytes. -/
def varint (last k : Nat) (hlast : last < 128) (toNat : α → Nat) (ofNat : Nat → α)
    (hlt : ∀ a, toNat a < (last + 1) * 128 ^ k) (hleft : ∀ a, ofNat (toNat a) = a)
    (hright : ∀ n, n < (last + 1) * 128 ^ k → toNat (ofNat n) = n) : Codec α where
  enc a := varintLoop (k + 1) (toNat a)
  dec b := (takeVarint last (k + 1) b).map fun s => (ofNat s.1, s.2)
  fits _ := True
  dec_enc := by
    intro a rest _
    rw [takeVarint_varintLoop hlast rest (hlt a)]
    simp [hleft]
  dec_eq := by
    intro b rest a h
    obtain ⟨⟨n, r⟩, hn, hs⟩ := Option.map_eq_some_iff.mp h
    obtain ⟨rfl, rfl⟩ := Prod.mk.inj hs
    obtain ⟨hb, p, hp, hlen⟩ := takeVarint_eq_some hn
    exact ⟨trivial, p, hp, by rw [hright n hb]; exact hlen⟩

/-- `u8`: the raw byte. -/
def u8 : Codec UInt8 where
  enc a := [a]
  dec
    | [] => none
    | a :: rest => some (a, rest)
  fits _ := True
  dec_enc := fun _ _ => rfl
  dec_eq := by
    rintro (- | ⟨c, tail⟩) rest a h
    · cases h
    · obtain ⟨rfl, rfl⟩ := Prod.mk.inj (Option.some.inj h)
      exact ⟨trivial, [c], rfl, le_rfl⟩

/-- `u16`: three bytes, the last at most `0x03`. -/
def u16 : Codec UInt16 :=
  varint 3 2 (by decide) UInt16.toNat UInt16.ofNat (fun a => a.toNat_lt)
    (fun a => UInt16.ofNat_toNat) (fun n h => UInt16.toNat_ofNat_of_lt' h)

/-- `u32`: five bytes, the last at most `0x0F`. -/
def u32 : Codec UInt32 :=
  varint 15 4 (by decide) UInt32.toNat UInt32.ofNat (fun a => a.toNat_lt)
    (fun a => UInt32.ofNat_toNat) (fun n h => UInt32.toNat_ofNat_of_lt' h)

/-- `u64`: ten bytes, the last at most `0x01`. -/
def u64 : Codec UInt64 :=
  varint 1 9 (by decide) UInt64.toNat UInt64.ofNat (fun a => a.toNat_lt)
    (fun a => UInt64.ofNat_toNat) (fun n h => UInt64.toNat_ofNat_of_lt' h)

/-- A struct of two fields: plain concatenation. -/
def pair (A : Codec α) (B : Codec β) : Codec (α × β) where
  enc s := A.enc s.1 ++ B.enc s.2
  dec b := (A.dec b).bind fun s => (B.dec s.2).map fun t => ((s.1, t.1), t.2)
  fits s := A.fits s.1 ∧ B.fits s.2
  dec_enc := by
    intro s rest h
    rw [List.append_assoc, A.dec_enc _ h.1]
    simp [B.dec_enc rest h.2]
  dec_eq := by
    rintro b rest ⟨a, c⟩ h
    obtain ⟨⟨a', r⟩, ha, h⟩ := Option.bind_eq_some_iff.mp h
    obtain ⟨⟨c', r'⟩, hc, h⟩ := Option.map_eq_some_iff.mp h
    simp only [Prod.mk.injEq] at h
    obtain ⟨⟨rfl, rfl⟩, rfl⟩ := h
    obtain ⟨fa, p, rfl, hp⟩ := A.dec_eq ha
    obtain ⟨fc, q, rfl, hq⟩ := B.dec_eq hc
    exact ⟨⟨fa, fc⟩, p ++ q, by simp, by simpa using Nat.add_le_add hp hq⟩

/-- An enum of two variants: the varint tag, then the variant's fields. -/
def variants (A : Codec α) (B : Codec β) : Codec (α ⊕ β) where
  enc
    | .inl a => u32.enc 0 ++ A.enc a
    | .inr b => u32.enc 1 ++ B.enc b
  dec s := (u32.dec s).bind fun t =>
    if t.1 = 0 then (A.dec t.2).map fun v => (.inl v.1, v.2)
    else if t.1 = 1 then (B.dec t.2).map fun v => (.inr v.1, v.2)
    else none
  fits
    | .inl a => A.fits a
    | .inr b => B.fits b
  dec_enc := by
    rintro (a | b) rest h
    · simp only [List.append_assoc, u32.dec_enc _ trivial]
      simp [A.dec_enc rest h]
    · simp only [List.append_assoc, u32.dec_enc _ trivial]
      simp [B.dec_enc rest h]
  dec_eq := by
    intro s rest c h
    obtain ⟨⟨tag, r⟩, htag, h⟩ := Option.bind_eq_some_iff.mp h
    obtain ⟨-, p, hp, hlen⟩ := u32.dec_eq htag
    dsimp only at h
    split_ifs at h with h0 h1
    · obtain ⟨⟨a, r'⟩, ha, h⟩ := Option.map_eq_some_iff.mp h
      obtain ⟨rfl, rfl⟩ := Prod.mk.inj h
      obtain ⟨fa, q, hq, hqlen⟩ := A.dec_eq ha
      refine ⟨fa, p ++ q, by rw [hp, hq, List.append_assoc], ?_⟩
      simpa using Nat.add_le_add (h0 ▸ hlen) hqlen
    · obtain ⟨⟨b, r'⟩, hb, h⟩ := Option.map_eq_some_iff.mp h
      obtain ⟨rfl, rfl⟩ := Prod.mk.inj h
      obtain ⟨fb, q, hq, hqlen⟩ := B.dec_eq hb
      refine ⟨fb, p ++ q, by rw [hp, hq, List.append_assoc], ?_⟩
      simpa using Nat.add_le_add (h1 ▸ hlen) hqlen

/-- A validated type over a wire type: decode `α`, then `validate`
(`#[serde(try_from = ..)]`).  The value re-encodes through `repr`, in no more
bytes than what was validated. -/
def validated {ε : Type*} (A : Codec α) (validate : α → Except ε β) (repr : β → α)
    (hleft : ∀ b, validate (repr b) = .ok b)
    (hright : ∀ {a b}, A.fits a → validate a = .ok b →
      A.fits (repr b) ∧ (A.enc (repr b)).length ≤ (A.enc a).length) : Codec β where
  enc b := A.enc (repr b)
  dec s := (A.dec s).bind fun t =>
    match validate t.1 with
    | .ok b => some (b, t.2)
    | .error _ => none
  fits b := A.fits (repr b)
  dec_enc := by
    intro b rest h
    simp [A.dec_enc rest h, hleft]
  dec_eq := by
    intro s rest b h
    obtain ⟨⟨a, r⟩, ha, h⟩ := Option.bind_eq_some_iff.mp h
    obtain ⟨fa, p, hp, hlen⟩ := A.dec_eq ha
    rcases hv : validate a with e | b'
    · simp [hv] at h
    · simp only [hv] at h
      obtain ⟨rfl, rfl⟩ := Prod.mk.inj (Option.some.inj h)
      obtain ⟨fb, hle⟩ := hright fa hv
      exact ⟨fb, p, hp, hle.trans hlen⟩

/-- A validated type that keeps its representation unchanged. -/
def wrapped {ε : Type*} (A : Codec α) (validate : α → Except ε β) (repr : β → α)
    (hleft : ∀ b, validate (repr b) = .ok b)
    (hright : ∀ {a b}, validate a = .ok b → repr b = a) : Codec β :=
  A.validated validate repr hleft (by
    intro a b fa h
    rw [hright h]
    exact ⟨fa, le_rfl⟩)

/-- A newtype or a struct seen as the tuple of its fields. -/
def iso (A : Codec α) (mk : α → β) (fields : β → α) (hleft : ∀ b, mk (fields b) = b)
    (hright : ∀ a, fields (mk a) = a) : Codec β :=
  A.wrapped (ε := Empty) (fun a => .ok (mk a)) fields (fun b => by rw [hleft]) (by
    intro a b h
    obtain rfl := Except.ok.inj h
    exact hright a)

/-! ### Raw bytes, strings and sequences -/

/-- Split off exactly `n` bytes. -/
def takeN (n : Nat) (b : Bytes) : Option (Bytes × Bytes) :=
  if n ≤ b.length then some (b.take n, b.drop n) else none

theorem takeN_append (p rest : Bytes) : takeN p.length (p ++ rest) = some (p, rest) := by
  simp [takeN]

theorem takeN_eq_some {n : Nat} {b p rest : Bytes} (h : takeN n b = some (p, rest)) :
    b = p ++ rest ∧ p.length = n := by
  unfold takeN at h
  split_ifs at h with hn
  obtain ⟨rfl, rfl⟩ := Prod.mk.inj (Option.some.inj h)
  exact ⟨(List.take_append_drop n b).symm, by simp [hn]⟩

/-- A fixed array `[u8; n]`: its bytes. -/
def array (n : Nat) : Codec (Vector UInt8 n) where
  enc v := v.toList
  dec b := if h : n ≤ b.length then
      some (⟨(b.take n).toArray, by simp [h]⟩, b.drop n)
    else none
  fits _ := True
  dec_enc := by
    intro v rest _
    have hlen : v.toList.length = n := v.length_toList
    rw [dif_pos (by simp [hlen])]
    simp only [Option.some.injEq, Prod.mk.injEq]
    refine ⟨?_, by rw [List.drop_left' hlen]⟩
    apply Vector.toList_inj.mp
    simp [List.take_left' hlen]
  dec_eq := by
    intro b rest v h
    split_ifs at h with hn
    obtain ⟨rfl, rfl⟩ := Prod.mk.inj (Option.some.inj h)
    refine ⟨trivial, b.take n, (List.take_append_drop n b).symm, ?_⟩
    simp [hn]

/-- The UTF-8 bytes of a string. -/
def utf8 (s : String) : Bytes := s.toByteArray.data.toList

theorem length_utf8 (s : String) : (utf8 s).length = s.utf8ByteSize := by
  simp [utf8, ← String.size_toByteArray]

/-- `core::str::from_utf8`. -/
def fromUtf8 (b : Bytes) : Option String := String.fromUTF8? ⟨b.toArray⟩

theorem fromUtf8_utf8 (s : String) : fromUtf8 (utf8 s) = some s := by
  have h : (⟨(utf8 s).toArray⟩ : ByteArray) = s.toByteArray := by simp [utf8]
  rw [fromUtf8, h, String.fromUTF8?, dif_pos s.isValidUTF8]
  rfl

theorem utf8_of_fromUtf8 {b : Bytes} {s : String} (h : fromUtf8 b = some s) : utf8 s = b := by
  unfold fromUtf8 String.fromUTF8? at h
  split_ifs at h with hv
  obtain rfl := Option.some.inj h
  simp [utf8, String.fromUTF8]

/-- A `usize` length field. -/
def len : Nat → Bytes := varintLoop 10

/-- A `String`: varint byte length, then its UTF-8 bytes. -/
def string : Codec String where
  enc s := len (utf8 s).length ++ utf8 s
  dec b := (takeVarint 1 10 b).bind fun s => (takeN s.1 s.2).bind fun t =>
    (fromUtf8 t.1).map fun v => (v, t.2)
  fits s := s.utf8ByteSize < 2 ^ 64
  dec_enc := by
    intro s rest h
    rw [← length_utf8] at h
    rw [len, List.append_assoc, takeVarint_varintLoop (by decide) _ (by simpa using h)]
    simp [takeN_append, fromUtf8_utf8]
  dec_eq := by
    intro b rest s h
    obtain ⟨⟨n, r⟩, hn, h⟩ := Option.bind_eq_some_iff.mp h
    obtain ⟨⟨raw, r'⟩, hraw, h⟩ := Option.bind_eq_some_iff.mp h
    obtain ⟨v, hv, h⟩ := Option.map_eq_some_iff.mp h
    obtain ⟨rfl, rfl⟩ := Prod.mk.inj h
    obtain ⟨hlt, p, rfl, hp⟩ := takeVarint_eq_some hn
    obtain ⟨rfl, rfl⟩ := takeN_eq_some hraw
    obtain rfl := utf8_of_fromUtf8 hv
    refine ⟨by rw [← length_utf8]; simpa using hlt, p ++ utf8 v, by simp, ?_⟩
    simpa [len] using hp

variable (A : Codec α)

/-- Decode exactly `n` elements. -/
def decN : Nat → Bytes → Option (List α × Bytes)
  | 0, b => some ([], b)
  | n + 1, b => (A.dec b).bind fun s => (decN n s.2).map fun t => (s.1 :: t.1, t.2)

theorem decN_enc {l : List α} (rest : Bytes) (h : ∀ a ∈ l, A.fits a) :
    A.decN l.length (l.flatMap A.enc ++ rest) = some (l, rest) := by
  induction l with
  | nil => rfl
  | cons a l ih =>
      have hl := ih fun x hx => h x (by simp [hx])
      simp only [List.length_cons, decN, List.flatMap_cons, List.append_assoc]
      rw [A.dec_enc _ (h a (by simp))]
      simp [hl]

theorem decN_eq_some {n : Nat} {b rest : Bytes} {l : List α} (h : A.decN n b = some (l, rest)) :
    l.length = n ∧ (∀ a ∈ l, A.fits a) ∧
      ∃ p, b = p ++ rest ∧ (l.flatMap A.enc).length ≤ p.length := by
  induction n generalizing b l with
  | zero =>
      obtain ⟨rfl, rfl⟩ := Prod.mk.inj (Option.some.inj h)
      exact ⟨rfl, by simp, [], by simp, by simp⟩
  | succ n ih =>
      obtain ⟨⟨a, r⟩, ha, h⟩ := Option.bind_eq_some_iff.mp h
      obtain ⟨⟨l', r'⟩, hl, h⟩ := Option.map_eq_some_iff.mp h
      obtain ⟨rfl, rfl⟩ := Prod.mk.inj h
      obtain ⟨fa, p, rfl, hp⟩ := A.dec_eq ha
      obtain ⟨hlen, fl, q, rfl, hq⟩ := ih hl
      refine ⟨by simp [hlen], ?_, p ++ q, by simp, ?_⟩
      · intro x hx
        rcases List.mem_cons.mp hx with rfl | hx
        · exact fa
        · exact fl x hx
      · simpa using Nat.add_le_add hp hq

/-- A `Vec<T>`: varint element count, then the elements. -/
def vec : Codec (List α) where
  enc l := len l.length ++ l.flatMap A.enc
  dec b := (takeVarint 1 10 b).bind fun s => A.decN s.1 s.2
  fits l := l.length < 2 ^ 64 ∧ ∀ a ∈ l, A.fits a
  dec_enc := by
    intro l rest h
    rw [len, List.append_assoc, takeVarint_varintLoop (by decide) _ (by simpa using h.1)]
    exact A.decN_enc rest h.2
  dec_eq := by
    intro b rest l h
    obtain ⟨⟨n, r⟩, hn, hl⟩ := Option.bind_eq_some_iff.mp h
    obtain ⟨hlt, p, rfl, hp⟩ := takeVarint_eq_some hn
    obtain ⟨rfl, fl, q, rfl, hq⟩ := A.decN_eq_some hl
    refine ⟨⟨by simpa using hlt, fl⟩, p ++ q, by simp, ?_⟩
    simpa [len] using Nat.add_le_add hp hq

/-- `take_from_bytes` with nothing left over. -/
def whole (b : Bytes) : Option α :=
  match A.dec b with
  | some (a, []) => some a
  | _ => none

theorem whole_enc {a : α} (h : A.fits a) : A.whole (A.enc a) = some a := by
  have e : A.dec (A.enc a) = some (a, []) := by simpa using A.dec_enc [] h
  rw [whole, e]

/-- A value that took up the whole input re-encodes in no more bytes. -/
theorem length_enc_of_whole {b : Bytes} {a : α} (h : A.whole b = some a) :
    (A.enc a).length ≤ b.length := by
  unfold whole at h
  split at h
  · rename_i hdec
    obtain rfl := Option.some.inj h
    obtain ⟨-, p, rfl, hlen⟩ := A.dec_eq hdec
    rwa [List.append_nil]
  · cases h

/-! ### How long an encoding gets -/

theorem length_u16 (a : UInt16) : (u16.enc a).length ≤ 3 := length_varintLoop_le 3 _

theorem length_u32 (a : UInt32) : (u32.enc a).length ≤ 5 := length_varintLoop_le 5 _

theorem length_u64 (a : UInt64) : (u64.enc a).length ≤ 10 := length_varintLoop_le 10 _

theorem length_string (s : String) : (string.enc s).length ≤ 10 + s.utf8ByteSize := by
  have hlen : (len (utf8 s).length).length ≤ 10 := length_varintLoop_le 10 _
  show (len (utf8 s).length ++ utf8 s).length ≤ _
  rw [List.length_append, length_utf8] at *
  omega

theorem length_vec {A : Codec α} {w : Nat} (hw : ∀ a, (A.enc a).length ≤ w) (l : List α) :
    (A.vec.enc l).length ≤ 10 + w * l.length := by
  have hlen : (len l.length).length ≤ 10 := length_varintLoop_le 10 _
  have hbody : (l.flatMap A.enc).length ≤ w * l.length := by
    induction l with
    | nil => simp
    | cons a l ih =>
        have ha := hw a
        have hl := ih (length_varintLoop_le 10 _)
        rw [List.flatMap_cons, List.length_append, List.length_cons, Nat.mul_add, Nat.mul_one]
        omega
  show (len l.length ++ l.flatMap A.enc).length ≤ _
  rw [List.length_append]
  omega

end Codec

end Eggtunnel
