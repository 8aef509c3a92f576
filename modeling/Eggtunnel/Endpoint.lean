/-
Eggtunnel/Endpoint.lean

`Endpoint::parse`: the `host:port` texts of the client configuration, and what
they have to do with the hosts a peer may register.

The two split at different places: a bracketed text at its first `]`, any other
at its last `:`.  Both parts pass through `validate_target_host`, which is also
the validator of the wire target, and that forbids brackets; and no IPv6 literal
is without a colon (`colon_mem_of_isIpv6Literal`).  So a rendered host is split
where it was joined (`split_render`), or not accepted at all.
-/
import Eggtunnel.Wire

namespace Eggtunnel

/-! ### Splitting a text -/

section Split

variable {α : Type*} [DecidableEq α]

/-- `find`, and what stands before and behind what it finds. -/
def splitFirst (c : α) : List α → Option (List α × List α)
  | [] => none
  | x :: xs => if x = c then some ([], xs) else (splitFirst c xs).map fun p => (x :: p.1, p.2)

/-- `rsplit_once`. -/
def rsplitOnce (c : α) (cs : List α) : Option (List α × List α) :=
  (splitFirst c cs.reverse).map fun p => (p.2.reverse, p.1.reverse)

variable {c : α} {cs a b : List α}

theorem splitFirst_eq_some : splitFirst c cs = some (a, b) ↔ cs = a ++ c :: b ∧ c ∉ a := by
  induction cs generalizing a with
  | nil => simp [splitFirst]
  | cons x xs ih =>
      unfold splitFirst
      split_ifs with hx
      · subst hx
        constructor
        · intro h
          cases h
          simp
        · rintro ⟨h, hnot⟩
          cases a with
          | nil =>
              cases h
              rfl
          | cons y a =>
              cases h
              exact absurd List.mem_cons_self hnot
      · constructor
        · intro h
          obtain ⟨⟨a', b'⟩, hsplit, heq⟩ := Option.map_eq_some_iff.mp h
          cases heq
          obtain ⟨rfl, hnot⟩ := ih.mp hsplit
          refine ⟨rfl, fun hmem => ?_⟩
          rcases List.mem_cons.mp hmem with rfl | hmem
          · exact hx rfl
          · exact hnot hmem
        · rintro ⟨h, hnot⟩
          cases a with
          | nil =>
              cases h
              exact absurd rfl hx
          | cons y a =>
              cases h
              rw [ih.mpr ⟨rfl, fun hmem => hnot (List.mem_cons_of_mem _ hmem)⟩]
              rfl

theorem rsplitOnce_eq_some : rsplitOnce c cs = some (a, b) ↔ cs = a ++ c :: b ∧ c ∉ b := by
  unfold rsplitOnce
  constructor
  · intro h
    obtain ⟨⟨a', b'⟩, hsplit, heq⟩ := Option.map_eq_some_iff.mp h
    cases heq
    obtain ⟨hcs, hnot⟩ := splitFirst_eq_some.mp hsplit
    refine ⟨?_, fun hmem => hnot (List.mem_reverse.mp hmem)⟩
    rw [← List.reverse_reverse cs, hcs]
    simp
  · rintro ⟨rfl, hnot⟩
    have hreverse : (a ++ c :: b).reverse = b.reverse ++ c :: a.reverse := by simp
    rw [splitFirst_eq_some.mpr ⟨hreverse, fun hmem => hnot (List.mem_reverse.mp hmem)⟩]
    simp

/-- The last occurrence is in one place. -/
theorem append_cons_inj {a' b' : List α} (h : a ++ c :: b = a' ++ c :: b') (hb : c ∉ b)
    (hb' : c ∉ b') : a = a' ∧ b = b' := by
  have hsplit := rsplitOnce_eq_some.mpr ⟨h, hb'⟩
  rw [rsplitOnce_eq_some.mpr ⟨rfl, hb⟩] at hsplit
  exact Prod.mk.inj (Option.some.inj hsplit)

end Split

/-! ### An IPv6 literal has a colon -/

/-- A reader leaves a part of its input. -/
def Leaves (read : List Char → Option (List Char)) : Prop :=
  ∀ cs rest, read cs = some rest → rest ⊆ cs

theorem leaves_readNumber (radix maxDigits : Nat) (allowZero : Bool) (limit : Nat) :
    Leaves (readNumber radix maxDigits allowZero limit) := by
  intro cs rest h
  unfold readNumber at h
  dsimp only at h
  split_ifs at h
  cases h
  exact List.drop_subset _ _

theorem Leaves.readSeparator {read : List Char → Option (List Char)} (h : Leaves read)
    (sep : Char) (index : Nat) : Leaves (readSeparator sep index read) := by
  intro cs rest hread
  unfold Eggtunnel.readSeparator at hread
  split_ifs at hread
  · exact h cs rest hread
  · split at hread
    · split_ifs at hread
      exact List.subset_cons_of_subset _ (h _ rest hread)
    · cases hread

theorem leaves_readIpv4Addr : Leaves readIpv4Addr := by
  have hoctet (index : Nat) := (leaves_readNumber 10 3 false 255).readSeparator '.' index
  intro cs rest h
  unfold readIpv4Addr at h
  simp only [Option.bind_eq_bind, Option.bind_eq_some_iff] at h
  obtain ⟨cs₁, h₁, cs₂, h₂, cs₃, h₃, h₄⟩ := h
  exact fun _ hmem =>
    hoctet 0 _ _ h₁ (hoctet 1 _ _ h₂ (hoctet 2 _ _ h₃ (hoctet 3 _ _ h₄ hmem)))

/-- A separator that does not occur is not read. -/
theorem readSeparator_of_not_mem {sep : Char} {index : Nat} (hindex : index ≠ 0)
    (read : List Char → Option (List Char)) {cs : List Char} (h : sep ∉ cs) :
    readSeparator sep index read cs = none := by
  unfold readSeparator
  rw [if_neg hindex]
  cases cs with
  | nil => rfl
  | cons c rest =>
      refine if_neg fun heq => h ?_
      rw [heq]
      exact List.mem_cons_self

/-- Without a colon there is no group behind the first. -/
theorem readGroups_of_not_mem (r : Nat) {i : Nat} (hi : i ≠ 0) {cs : List Char} (h : ':' ∉ cs) :
    readGroups r i cs = (i, false, cs) := by
  cases r with
  | zero => rfl
  | succ r =>
      unfold readGroups
      simp only [readSeparator_of_not_mem hi _ h, ite_self]

theorem colon_mem_of_isIpv6Literal {host : String} (h : isIpv6Literal host = true) :
    ':' ∈ host.toList := by
  by_contra hcolon
  unfold isIpv6Literal readIpv6Addr at h
  generalize host.toList = cs at h hcolon
  -- one group is read, or an IPv4 address, or nothing
  have hgroups : ∃ n rest, n < 8 ∧ ':' ∉ rest ∧
      (readGroups 8 0 cs = (n, false, rest) ∨ readGroups 8 0 cs = (n, true, rest)) := by
    unfold readGroups
    rcases h4 : readSeparator ':' 0 readIpv4Addr cs with - | rest
    · rcases h6 : readSeparator ':' 0 (readNumber 16 4 true 0xFFFF) cs with - | rest
      · exact ⟨0, cs, by decide, hcolon, .inl rfl⟩
      · have hrest : ':' ∉ rest := fun hmem =>
          hcolon (((leaves_readNumber 16 4 true 0xFFFF).readSeparator ':' 0) cs rest h6 hmem)
        exact ⟨1, rest, by decide, hrest, .inl (readGroups_of_not_mem 7 (by decide) hrest)⟩
    · have hrest : ':' ∉ rest := fun hmem =>
        hcolon ((leaves_readIpv4Addr.readSeparator ':' 0) cs rest h4 hmem)
      exact ⟨2, rest, by decide, hrest, .inr rfl⟩
  obtain ⟨n, rest, hn, hrest, hread | hread⟩ := hgroups
  · rw [hread] at h
    split at h
    · rename_i heq
      cases heq
      exact absurd hn (by decide)
    · rename_i heq
      cases heq
    · rename_i heq
      cases heq
      exact hrest List.mem_cons_self
    · cases h
  · rw [hread] at h
    split at h
    · rename_i heq
      cases heq
      exact absurd hn (by decide)
    · cases h
    · rename_i heq
      cases heq
    · cases h

/-! ### Endpoints -/

/-- `EndpointError`. -/
inductive EndpointError
  | missingPort | emptyHost | unbracketedIpv6 | ambiguousHost | invalidPort
  deriving DecidableEq, Repr

/-- A validated `host:port` endpoint. -/
structure Endpoint where
  text : String
  host : String
  port : UInt16
  valid : validateTargetHost host = true ∧ port ≠ 0

instance : DecidableEq Endpoint := fun a b =>
  decidable_of_iff (a.text = b.text ∧ a.host = b.host ∧ a.port = b.port) (by
    cases a
    cases b
    simp only [Endpoint.mk.injEq])

namespace Endpoint

/-- The host and the port text of `Endpoint::parse`. -/
def split (value : List Char) : Except EndpointError (List Char × List Char) :=
  match value with
  | '[' :: rest =>
      match splitFirst ']' rest with
      | some (host, ':' :: portText) =>
          if host = [] then .error .emptyHost
          else if isIpv6Literal (.ofList host) then .ok (host, portText)
          else .error .ambiguousHost
      | _ => .error .missingPort
  | _ =>
      match rsplitOnce ':' value with
      | some (host, portText) =>
          if host = [] then .error .emptyHost
          -- a bare `::1:443` is ambiguous
          else if ':' ∈ host then .error .unbracketedIpv6
          else .ok (host, portText)
      | none => .error .missingPort

/-- The port of `Endpoint::parse`: `u16::from_str` behind a check for digits. -/
def parsePort (portText : List Char) : Except EndpointError UInt16 :=
  if portText = [] ∨ portText.all Char.isDigit = false then .error .invalidPort
  else if Nat.ofDigitChars 10 portText 0 < 2 ^ 16 then
    .ok (UInt16.ofNat (Nat.ofDigitChars 10 portText 0))
  else .error .invalidPort

/-- `Endpoint::parse`. -/
def parse (value : String) : Except EndpointError Endpoint :=
  match split value.toList with
  | .error e => .error e
  | .ok (host, portText) =>
      if hhost : validateTargetHost (.ofList host) = true then
        match parsePort portText with
        | .error e => .error e
        | .ok port =>
            if hport : port ≠ 0 then .ok ⟨value, .ofList host, port, hhost, hport⟩
            else .error .invalidPort
      else .error .ambiguousHost

/-- `Endpoint::websocket_url`. -/
def websocketUrl (e : Endpoint) : String := "wss://" ++ e.text ++ "/"

/-- A host and a port as an endpoint text. -/
def render (host : String) (port : UInt16) : String :=
  if ':' ∈ host.toList then "[" ++ host ++ "]:" ++ toString port.toNat
  else host ++ ":" ++ toString port.toNat

/-! ### What is accepted -/

/-- A non-empty decimal numeral of the value `port`. -/
structure Numeral (digits : List Char) (port : UInt16) : Prop where
  nonempty : digits ≠ []
  decimal : ∀ c ∈ digits, c.isDigit = true
  value : Nat.ofDigitChars 10 digits 0 = port.toNat

theorem parsePort_eq_ok {portText : List Char} {port : UInt16} :
    parsePort portText = .ok port ↔ Numeral portText port := by
  unfold parsePort
  constructor
  · intro h
    split_ifs at h with hbad hfits
    rw [not_or, Bool.not_eq_false, List.all_eq_true] at hbad
    cases h
    exact ⟨hbad.1, hbad.2, (UInt16.toNat_ofNat_of_lt hfits).symm⟩
  · intro h
    have hgood : ¬(portText = [] ∨ portText.all Char.isDigit = false) := by
      rw [not_or, Bool.not_eq_false, List.all_eq_true]
      exact ⟨h.nonempty, h.decimal⟩
    rw [if_neg hgood, h.value, if_pos port.toNat_lt, UInt16.ofNat_toNat]

/-- The two shapes of an endpoint text. -/
theorem split_eq_ok {value host portText : List Char} :
    split value = .ok (host, portText) ↔ host ≠ [] ∧
      ((value = '[' :: (host ++ ']' :: ':' :: portText) ∧ ']' ∉ host ∧
          isIpv6Literal (.ofList host) = true) ∨
        (value.head? ≠ some '[' ∧ value = host ++ ':' :: portText ∧ ':' ∉ portText ∧
          ':' ∉ host)) := by
  unfold split
  constructor
  · intro h
    split at h
    · split at h
      · rename_i rest _ host' portText' hfirst
        split_ifs at h with hempty hliteral
        cases h
        obtain ⟨rfl, hbracket⟩ := splitFirst_eq_some.mp hfirst
        exact ⟨hempty, .inl ⟨rfl, hbracket, hliteral⟩⟩
      · cases h
    · rename_i hbare
      split at h
      · rename_i host' portText' hlast
        split_ifs at h with hempty hcolon
        cases h
        obtain ⟨rfl, hrest⟩ := rsplitOnce_eq_some.mp hlast
        refine ⟨hempty, .inr ⟨fun hhead => ?_, rfl, hrest, hcolon⟩⟩
        obtain ⟨rest, hvalue⟩ := List.head?_eq_some_iff.mp hhead
        exact hbare rest hvalue
      · cases h
  · rintro ⟨hempty, ⟨rfl, hbracket, hliteral⟩ | ⟨hhead, rfl, hrest, hcolon⟩⟩
    · simp only [splitFirst_eq_some.mpr ⟨rfl, hbracket⟩, if_neg hempty, if_pos hliteral]
    · split
      · rename_i rest hvalue
        rw [hvalue] at hhead
        exact absurd rfl hhead
      · simp only [rsplitOnce_eq_some.mpr ⟨rfl, hrest⟩, if_neg hempty, if_neg hcolon]

/-- **What `parse` accepts**, and what it makes of it. -/
theorem parse_eq_ok {value : String} {e : Endpoint} :
    parse value = .ok e ↔ e.text = value ∧
      ∃ portText, split value.toList = .ok (e.host.toList, portText) ∧
        Numeral portText e.port := by
  unfold parse
  constructor
  · intro h
    split at h
    · cases h
    · rename_i host portText hsplit
      split_ifs at h with hhost
      split at h
      · cases h
      · rename_i port hport
        split_ifs at h
        cases h
        exact ⟨rfl, portText, by rw [hsplit, String.toList_ofList], parsePort_eq_ok.mp hport⟩
  · obtain ⟨text, host, port, hhost, hport⟩ := e
    rintro ⟨rfl, portText, hsplit, hnumeral⟩
    simp only [hsplit, String.ofList_toList, hhost, dite_true, parsePort_eq_ok.mpr hnumeral,
      dif_pos hport]

/-! ### Rendered hosts -/

/-- A validated host has neither bracket. -/
theorem not_mem_of_validateTargetHost {host : String} (h : validateTargetHost host = true)
    {c : Char} (hc : isForbiddenHostChar c = true) : c ∉ host.toList := by
  intro hmem
  simp only [validateTargetHost, Bool.and_eq_true, Bool.not_eq_true', List.any_eq_false] at h
  exact h.1.2 c hmem hc

theorem ne_nil_of_validateTargetHost {host : String} (h : validateTargetHost host = true) :
    host.toList ≠ [] := by
  intro hnil
  obtain rfl : host = "" := String.toList_injective hnil
  exact absurd h (by decide)

theorem isIpv6Literal_of_validateTargetHost {host : String} (h : validateTargetHost host = true)
    (hcolon : ':' ∈ host.toList) : isIpv6Literal host = true := by
  simp only [validateTargetHost, Bool.and_eq_true, Bool.or_eq_true, Bool.not_eq_true',
    List.contains_eq_mem, decide_eq_false_iff_not] at h
  exact h.2.resolve_left (absurd hcolon)

/-- The decimal text of a port. -/
def portDigits (port : UInt16) : List Char := Nat.toDigits 10 port.toNat

theorem numeral_portDigits (port : UInt16) : Numeral (portDigits port) port where
  nonempty := Nat.toDigits_ne_nil
  decimal _ hc := Nat.isDigit_of_mem_toDigits (by decide) (by decide) hc
  value := Nat.ofDigitChars_ten_toDigits

/-- A numeral has its value. -/
theorem Numeral.port_eq {digits : List Char} {p q : UInt16} (hp : Numeral digits p)
    (hq : Numeral digits q) : p = q :=
  UInt16.toNat_inj.mp (hp.value.symm.trans hq.value)

theorem Numeral.not_mem {digits : List Char} {port : UInt16} (h : Numeral digits port) {c : Char}
    (hc : c.isDigit = false) : c ∉ digits := by
  intro hmem
  rw [h.decimal c hmem] at hc
  cases hc

theorem toList_render (host : String) (port : UInt16) :
    (render host port).toList =
      if ':' ∈ host.toList then '[' :: (host.toList ++ ']' :: ':' :: portDigits port)
      else host.toList ++ ':' :: portDigits port := by
  unfold render portDigits
  split_ifs <;> simp [String.toList_append]

/-- **A rendered host is split where it was joined**, or it is not accepted. -/
theorem split_render {host : String} {port : UInt16} {h digits : List Char} {q : UInt16}
    (hsplit : split (render host port).toList = .ok (h, digits)) (hdigits : Numeral digits q) :
    h = host.toList ∧ digits = portDigits port := by
  rw [toList_render, split_eq_ok] at hsplit
  have hport := numeral_portDigits port
  obtain ⟨-, ⟨hvalue, -, hliteral⟩ | ⟨hhead, hvalue, -, -⟩⟩ := hsplit
  · -- the last colon stands behind the last bracket, whatever the host contains
    have hlast : h ++ ']' :: ':' :: digits = (h ++ [']']) ++ ':' :: digits := by simp
    split_ifs at hvalue with hin
    · have hvalue : (host.toList ++ [']']) ++ ':' :: portDigits port
          = (h ++ [']']) ++ ':' :: digits := by
        rw [← hlast, ← (List.cons.inj hvalue).2]
        simp
      obtain ⟨hhost, hdigits'⟩ := append_cons_inj hvalue (hport.not_mem rfl) (hdigits.not_mem rfl)
      exact ⟨(List.append_cancel_right hhost).symm, hdigits'.symm⟩
    · -- a host with a leading bracket has the colon of the literal
      rw [hlast, ← List.cons_append] at hvalue
      obtain ⟨hhost, -⟩ := append_cons_inj hvalue (hport.not_mem rfl) (hdigits.not_mem rfl)
      have hcolon := colon_mem_of_isIpv6Literal hliteral
      rw [String.toList_ofList] at hcolon
      refine absurd ?_ hin
      rw [hhost]
      exact List.mem_cons_of_mem _ (List.mem_append_left _ hcolon)
  · split_ifs at hvalue hhead with hin
    · exact absurd rfl hhead
    · obtain ⟨hhost, hdigits'⟩ := append_cons_inj hvalue (hport.not_mem rfl) (hdigits.not_mem rfl)
      exact ⟨hhost.symm, hdigits'.symm⟩

/-- A validated host is accepted as it is rendered. -/
theorem split_render_of_validateTargetHost {host : String}
    (h : validateTargetHost host = true) (port : UInt16) :
    split (render host port).toList = .ok (host.toList, portDigits port) := by
  have hempty := ne_nil_of_validateTargetHost h
  have hopening : '[' ∉ host.toList := not_mem_of_validateTargetHost h (by decide)
  have hclosing : ']' ∉ host.toList := not_mem_of_validateTargetHost h (by decide)
  rw [toList_render, split_eq_ok]
  refine ⟨hempty, ?_⟩
  split_ifs with hin
  · refine .inl ⟨rfl, hclosing, ?_⟩
    rw [String.ofList_toList]
    exact isIpv6Literal_of_validateTargetHost h hin
  · refine .inr ⟨fun hhead => hopening ?_, rfl, (numeral_portDigits port).not_mem rfl, hin⟩
    obtain ⟨c, cs, hcs⟩ := List.exists_cons_of_ne_nil hempty
    rw [hcs] at hhead ⊢
    cases hhead
    exact List.mem_cons_self

/-- **Endpoints and wire targets accept the same hosts.**  A host and a port make
a wire target if and only if their rendering parses, and then it parses to them.
Conversely a text that parses is a bracketed IPv6 literal or a text without a
colon, then a colon and a decimal numeral in range; it is kept as it is, and the
`wss` authority is that text. -/
theorem parse_iff_target :
    (∀ (host : String) (port : UInt16),
      ((∃ target, TcpTarget.new host port = .ok target) ↔
        ∃ e, parse (render host port) = .ok e) ∧
      ∀ e, parse (render host port) = .ok e → e.host = host ∧ e.port = port) ∧
    ∀ (value : String) (e : Endpoint), parse value = .ok e →
      ∃ digits : String,
        (value = "[" ++ e.host ++ "]:" ++ digits ∧ isIpv6Literal e.host = true ∨
          value = e.host ++ ":" ++ digits ∧ ':' ∉ e.host.toList) ∧
        validateTargetHost e.host = true ∧
        digits ≠ "" ∧ (∀ c ∈ digits.toList, c.isDigit = true) ∧
        Nat.ofDigitChars 10 digits.toList 0 = e.port.toNat ∧
        1 ≤ e.port.toNat ∧ e.port.toNat ≤ 65535 ∧
        e.text = value ∧ e.websocketUrl = "wss://" ++ value ++ "/" := by
  refine ⟨fun host port => ?_, fun value e h => ?_⟩
  · have hfields : ∀ e, parse (render host port) = .ok e → e.host = host ∧ e.port = port := by
      intro e he
      obtain ⟨-, digits, hsplit, hnumeral⟩ := parse_eq_ok.mp he
      obtain ⟨hhost, rfl⟩ := split_render hsplit hnumeral
      exact ⟨String.toList_injective hhost, hnumeral.port_eq (numeral_portDigits port)⟩
    refine ⟨⟨?_, ?_⟩, hfields⟩
    · rintro ⟨target, htarget⟩
      obtain ⟨rfl, rfl⟩ := TcpTarget.fields_of_new htarget
      refine ⟨⟨_, target.host, target.port, target.valid⟩,
        parse_eq_ok.mpr ⟨rfl, portDigits target.port, ?_⟩⟩
      exact ⟨split_render_of_validateTargetHost target.valid.1 _, numeral_portDigits _⟩
    · rintro ⟨e, he⟩
      obtain ⟨rfl, rfl⟩ := hfields e he
      exact ⟨⟨e.host, e.port, e.valid⟩, dif_pos e.valid⟩
  · obtain ⟨htext, digits, hsplit, hnumeral⟩ := parse_eq_ok.mp h
    have hpositive : e.port.toNat ≠ 0 := fun hzero => e.valid.2 (UInt16.toNat_inj.mp hzero)
    have hbound := e.port.toNat_lt
    refine ⟨.ofList digits, ?_, e.valid.1, ?_, ?_, ?_, by omega, by omega, htext, ?_⟩
    · obtain ⟨-, ⟨hvalue, -, hliteral⟩ | ⟨-, hvalue, -, hcolon⟩⟩ := split_eq_ok.mp hsplit
      · rw [String.ofList_toList] at hliteral
        refine .inl ⟨String.toList_injective ?_, hliteral⟩
        rw [hvalue]
        simp [String.toList_append]
      · refine .inr ⟨String.toList_injective ?_, hcolon⟩
        rw [hvalue]
        simp [String.toList_append]
    · intro hnil
      refine hnumeral.nonempty ?_
      rw [← String.toList_ofList (l := digits), hnil]
      rfl
    · rw [String.toList_ofList]
      exact hnumeral.decimal
    · rw [String.toList_ofList]
      exact hnumeral.value
    · rw [websocketUrl, htext]

/-- The loopback address as a host. -/
theorem parse_iff_target_loopback :
    (∃ target, TcpTarget.new "::1" 443 = .ok target) ∧ render "::1" 443 = "[::1]:443" ∧
      ∃ e, parse "[::1]:443" = .ok e ∧ e.host = "::1" ∧ e.port = 443 := by
  have htarget : ∃ target, TcpTarget.new "::1" 443 = .ok target :=
    ⟨⟨"::1", 443, by decide +kernel⟩, by decide +kernel⟩
  have hrender : render "::1" 443 = "[::1]:443" := by decide +kernel
  obtain ⟨hiff, hfields⟩ := parse_iff_target.1 "::1" 443
  obtain ⟨e, he⟩ := hiff.mp htarget
  rw [hrender] at he hfields
  exact ⟨htarget, hrender, e, he, hfields e he⟩

end Endpoint

end Eggtunnel
