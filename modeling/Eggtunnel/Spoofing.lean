/-
Eggtunnel/Spoofing.lean

The characters that are invisible or reorder text, and the validators.

The general categories `Cc`, `Cf`, `Zl` and `Zp` are those of Unicode 16.0.
`is_control` is `Cc`, and `is_format_char` lists `Zl`, `Zp` and part of `Cf`: the
characters of `unlistedRanges`, among them five of the bidirectional controls,
are missing.  For a character of the four categories, no text that contains it is
valid exactly if it is not one of those (`spoofing_rejected_iff`).
-/
import Eggtunnel.Decode

namespace Eggtunnel

/-! ### Ranges of code points -/

/-- The number is in one of the ranges. -/
def inRanges (ranges : List (Nat × Nat)) (n : Nat) : Bool :=
  ranges.any fun range => range.1 ≤ n && n ≤ range.2

section Ranges

variable {A B : List (Nat × Nat)} {n : Nat}

theorem inRanges_iff : inRanges A n = true ↔ ∃ range ∈ A, range.1 ≤ n ∧ n ≤ range.2 := by
  rw [inRanges, List.any_eq_true]
  simp only [Bool.and_eq_true, decide_eq_true_eq]

theorem inRanges_append : inRanges (A ++ B) n = (inRanges A n || inRanges B n) :=
  List.any_append

/-- Ranges that are part of others. -/
theorem inRanges_of_covered (h : ∀ r ∈ A, ∃ t ∈ B, t.1 ≤ r.1 ∧ r.2 ≤ t.2)
    (hn : inRanges A n = true) : inRanges B n = true := by
  obtain ⟨r, hr, hfirst, hlast⟩ := inRanges_iff.mp hn
  obtain ⟨t, ht, hstart, hend⟩ := h r hr
  exact inRanges_iff.mpr ⟨t, ht, hstart.trans hfirst, hlast.trans hend⟩

/-- Ranges that lie apart from others. -/
theorem inRanges_eq_false_of_apart (h : ∀ r ∈ A, ∀ t ∈ B, r.2 < t.1 ∨ t.2 < r.1)
    (hn : inRanges A n = true) : inRanges B n = false := by
  rw [Bool.eq_false_iff]
  intro hB
  obtain ⟨r, hr, hfirst, hlast⟩ := inRanges_iff.mp hn
  obtain ⟨t, ht, hstart, hend⟩ := inRanges_iff.mp hB
  rcases h r hr t ht with hlt | hlt <;> omega

end Ranges

/-! ### General categories -/

/-- The code points of general category `Cc`. -/
def controlRanges : List (Nat × Nat) := [(0x0, 0x1F), (0x7F, 0x9F)]

/-- The code points of general category `Cf`. -/
def formatRanges : List (Nat × Nat) :=
  [(0xAD, 0xAD), (0x600, 0x605), (0x61C, 0x61C), (0x6DD, 0x6DD), (0x70F, 0x70F), (0x890, 0x891),
    (0x8E2, 0x8E2), (0x180E, 0x180E), (0x200B, 0x200F), (0x202A, 0x202E), (0x2060, 0x2064),
    (0x2066, 0x206F), (0xFEFF, 0xFEFF), (0xFFF9, 0xFFFB), (0x110BD, 0x110BD), (0x110CD, 0x110CD),
    (0x13430, 0x1343F), (0x1BCA0, 0x1BCA3), (0x1D173, 0x1D17A), (0xE0001, 0xE0001),
    (0xE0020, 0xE007F)]

/-- The code points of general category `Zl` or `Zp`. -/
def separatorRanges : List (Nat × Nat) := [(0x2028, 0x2028), (0x2029, 0x2029)]

/-- A character of general category `Cc`, `Cf`, `Zl` or `Zp`. -/
def isSpoofing (c : Char) : Bool :=
  inRanges (controlRanges ++ formatRanges ++ separatorRanges) c.toNat

/-- The property `Bidi_Control`. -/
def isBidiControl (c : Char) : Bool :=
  inRanges [(0x61C, 0x61C), (0x200E, 0x200F), (0x202A, 0x202E), (0x2066, 0x2069)] c.toNat

/-- The format characters that `is_format_char` does not list. -/
def unlistedRanges : List (Nat × Nat) :=
  [(0x600, 0x605), (0x61C, 0x61C), (0x6DD, 0x6DD), (0x70F, 0x70F), (0x890, 0x891), (0x8E2, 0x8E2),
    (0x180E, 0x180E), (0x2066, 0x206F), (0xFFF9, 0xFFFB), (0x110BD, 0x110BD), (0x110CD, 0x110CD),
    (0x13430, 0x1343F), (0x1BCA0, 0x1BCA3), (0x1D173, 0x1D17A), (0xE0001, 0xE0001),
    (0xE0020, 0xE007F)]

/-- A format character that `is_format_char` does not list. -/
def isUnlisted (c : Char) : Bool := inRanges unlistedRanges c.toNat

/-- Every bidirectional control is a format character. -/
theorem isSpoofing_of_isBidiControl {c : Char} (h : isBidiControl c = true) :
    isSpoofing c = true :=
  inRanges_of_covered (by decide) h

/-! ### The checks as ranges -/

/-- The ranges of `is_control` and `is_format_char`. -/
def refusedRanges : List (Nat × Nat) :=
  controlRanges ++
    [(0xAD, 0xAD), (0x200B, 0x200F), (0x2028, 0x202E), (0x2060, 0x2064), (0xFEFF, 0xFEFF)]

theorem refused_eq_inRanges (c : Char) :
    (isControl c || isFormatChar c) = inRanges refusedRanges c.toNat := by
  rw [Bool.eq_iff_iff]
  simp only [isControl, isFormatChar, refusedRanges, controlRanges, inRanges, List.cons_append,
    List.nil_append, List.any_cons, List.any_nil, Bool.or_eq_true, Bool.and_eq_true,
    decide_eq_true_eq, beq_iff_eq, Bool.false_eq_true, or_false]
  omega

theorem isWhitespace_eq_inRanges (c : Char) : isWhitespace c = inRanges
    [(0x9, 0xD), (0x20, 0x20), (0x85, 0x85), (0xA0, 0xA0), (0x1680, 0x1680), (0x2000, 0x200A),
      (0x2028, 0x2029), (0x202F, 0x202F), (0x205F, 0x205F), (0x3000, 0x3000)] c.toNat := by
  rw [Bool.eq_iff_iff]
  simp only [isWhitespace, inRanges, List.any_cons, List.any_nil, Bool.or_eq_true,
    Bool.and_eq_true, decide_eq_true_eq, beq_iff_eq, Bool.false_eq_true, or_false]
  omega

/-- The checks that both validators make refuse the listed characters and no
others. -/
theorem refused_iff_of_isSpoofing {c : Char} (h : isSpoofing c = true) :
    (isControl c || isFormatChar c) = true ↔ isUnlisted c = false := by
  have hsplit : inRanges (refusedRanges ++ unlistedRanges) c.toNat = true :=
    inRanges_of_covered (by decide) h
  rw [refused_eq_inRanges]
  constructor
  · exact inRanges_eq_false_of_apart (by decide)
  · intro hlisted
    rw [isUnlisted] at hlisted
    rwa [inRanges_append, hlisted, Bool.or_false] at hsplit

theorem not_refused_of_isUnlisted {c : Char} (h : isUnlisted c = true) :
    (isControl c || isFormatChar c) = false := by
  rw [refused_eq_inRanges]
  exact inRanges_eq_false_of_apart (A := unlistedRanges) (by decide) h

/-- An unlisted character passes every check of the host validator. -/
theorem passes_of_isUnlisted {c : Char} (h : isUnlisted c = true) :
    isForbiddenHostChar c = false ∧ c ≠ ':' := by
  have hlow {d : Char} (hd : d.toNat < 0x80) : c ≠ d := by
    rintro rfl
    have hapart : inRanges [(0x0, 0x7F)] c.toNat = false :=
      inRanges_eq_false_of_apart (A := unlistedRanges) (by decide) h
    rw [Bool.eq_false_iff] at hapart
    exact hapart (inRanges_iff.mpr ⟨_, List.mem_singleton_self _, Nat.zero_le _, by omega⟩)
  refine ⟨?_, hlow (by decide)⟩
  have hrefused := not_refused_of_isUnlisted h
  have hspace : isWhitespace c = false := by
    rw [isWhitespace_eq_inRanges]
    exact inRanges_eq_false_of_apart (A := unlistedRanges) (by decide) h
  have hauthority : authorityChars.contains c = false := by
    rw [Bool.eq_false_iff]
    intro hmem
    have hall : authorityChars.all (fun d => d.toNat < 0x80) = true := by decide
    have hascii := List.all_eq_true.mp hall c (List.contains_iff_mem.mp hmem)
    exact hlow (of_decide_eq_true hascii) rfl
  rw [isForbiddenHostChar, Bool.or_assoc (isWhitespace c), hspace, hrefused, hauthority]
  rfl

/-! ### Texts -/

theorem validateTargetHost_eq_false {text : String} {c : Char} (hc : c ∈ text.toList)
    (h : (isControl c || isFormatChar c) = true) : validateTargetHost text = false := by
  rw [Bool.eq_false_iff]
  intro hvalid
  have hchar := (hostOk ⟨text, 1, hvalid, by decide⟩).chars c hc
  rw [isForbiddenHostChar, Bool.or_assoc (isWhitespace c), h, Bool.or_true, Bool.true_or] at hchar
  cases hchar

theorem new_diagnostic_eq_error {text : String} {c : Char} (hc : c ∈ text.toList)
    (h : (isControl c || isFormatChar c) = true) :
    BoundedDiagnostic.new text = .error .invalidPayload := by
  rw [BoundedDiagnostic.new, dif_neg]
  intro hvalid
  have hchar := (diagnosticOk ⟨text, hvalid⟩).chars c hc
  rw [hchar.1, hchar.2] at h
  cases h

/-- A host that is one unlisted character. -/
theorem validateTargetHost_singleton {c : Char} (h : isUnlisted c = true) :
    validateTargetHost (String.singleton c) = true := by
  obtain ⟨hpasses, hcolon⟩ := passes_of_isUnlisted h
  have hpos : c.utf8Size ≠ 0 := (Char.utf8Size_pos c).ne'
  have hbound : c.utf8Size ≤ 253 := (Char.utf8Size_le_four c).trans (by decide)
  simp [validateTargetHost, hpos, hbound, hpasses, hcolon.symm]

theorem validDiagnostic_singleton {c : Char} (h : isUnlisted c = true) :
    validDiagnostic (String.singleton c) = true := by
  have hpasses := not_refused_of_isUnlisted h
  have hbound : c.utf8Size ≤ 256 := (Char.utf8Size_le_four c).trans (by decide)
  simp [validDiagnostic, hbound, hpasses]

/-- The validated texts of a message. -/
def Message.texts : Message → List String
  | .registerService v => [v.target.host]
  | .error v => [v.diagnostic.text]
  | .registerReject v => [v.diagnostic.text]
  | _ => []

theorem not_refused_of_mem_texts {m : Message} {text : String} {c : Char} (htext : text ∈ m.texts)
    (hc : c ∈ text.toList) : (isControl c || isFormatChar c) = false := by
  have hdiagnostic (d : BoundedDiagnostic) (hd : text ∈ [d.text]) :
      (isControl c || isFormatChar c) = false := by
    rw [List.mem_singleton] at hd
    subst hd
    obtain ⟨hcontrol, hformat⟩ := (diagnosticOk d).chars c hc
    rw [hcontrol, hformat]
    rfl
  cases m with
  | registerService v =>
      obtain rfl := List.mem_singleton.mp htext
      rw [Bool.eq_false_iff]
      intro hrefused
      have hvalid := v.target.valid.1
      rw [validateTargetHost_eq_false hc hrefused] at hvalid
      cases hvalid
  | error v => exact hdiagnostic v.diagnostic htext
  | registerReject v => exact hdiagnostic v.diagnostic htext
  | _ => cases htext

/-- A frame of each of the three types that carries an unlisted character. -/
theorem exists_frame_of_isUnlisted {c : Char} (h : isUnlisted c = true) {kind : MessageType}
    (hkind : kind ∈ [MessageType.registerService, .error, .registerReject]) :
    ∃ b m n, decodeFrame b = .ok (m, n) ∧ m.kind = kind ∧
      ∃ text ∈ m.texts, c ∈ text.toList := by
  have hframe (m : Message) (hm : m.texts = [String.singleton c]) :
      ∃ b n, decodeFrame b = .ok (m, n) ∧ ∃ text ∈ m.texts, c ∈ text.toList := by
    refine ⟨m.frame ++ [], m.frame.length, decodeFrame_frame (encodeFrame_frame m) [], ?_⟩
    exact ⟨String.singleton c, by rw [hm]; exact List.mem_singleton_self _, by simp⟩
  let target : TcpTarget :=
    ⟨String.singleton c, 1, validateTargetHost_singleton h, by decide⟩
  let diagnostic : BoundedDiagnostic := ⟨String.singleton c, validDiagnostic_singleton h⟩
  simp only [List.mem_cons, List.not_mem_nil, or_false] at hkind
  rcases hkind with rfl | rfl | rfl
  · obtain ⟨b, n, hdecode, htext⟩ :=
      hframe (.registerService ⟨⟨1⟩, ⟨"web", by decide⟩, .loopback 0, target⟩) rfl
    exact ⟨b, _, n, hdecode, rfl, htext⟩
  · obtain ⟨b, n, hdecode, htext⟩ := hframe (.error ⟨1, diagnostic⟩) rfl
    exact ⟨b, _, n, hdecode, rfl, htext⟩
  · obtain ⟨b, n, hdecode, htext⟩ := hframe (.registerReject ⟨⟨1⟩, 1, diagnostic⟩) rfl
    exact ⟨b, _, n, hdecode, rfl, htext⟩

/-- **Which spoofing characters are kept out.**  Take a character of general
category `Cc`, `Cf`, `Zl` or `Zp`.  Both validators refuse every text that contains
it, and no target, error or refusal that is decoded contains it, exactly if it is
not one of the format characters that `is_format_char` leaves out. -/
theorem spoofing_rejected_iff (c : Char) (hc : isSpoofing c = true) :
    ((∀ text : String, c ∈ text.toList →
        validateTargetHost text = false ∧ BoundedDiagnostic.new text = .error .invalidPayload) ↔
      isUnlisted c = false) ∧
    ∀ kind ∈ [MessageType.registerService, .error, .registerReject],
      ((∀ b m n, decodeFrame b = .ok (m, n) → m.kind = kind →
          ∀ text ∈ m.texts, c ∉ text.toList) ↔ isUnlisted c = false) := by
  refine ⟨⟨fun hall => ?_, fun hlisted text htext => ?_⟩, fun kind hkind => ⟨fun hall => ?_, ?_⟩⟩
  · rw [Bool.eq_false_iff]
    intro hunlisted
    have hrefused := (hall (String.singleton c) (by simp)).1
    rw [validateTargetHost_singleton hunlisted] at hrefused
    cases hrefused
  · have hrefused := (refused_iff_of_isSpoofing hc).mpr hlisted
    exact ⟨validateTargetHost_eq_false htext hrefused, new_diagnostic_eq_error htext hrefused⟩
  · rw [Bool.eq_false_iff]
    intro hunlisted
    obtain ⟨b, m, n, hdecode, hm, text, htext, hmem⟩ := exists_frame_of_isUnlisted hunlisted hkind
    exact hall b m n hdecode hm text htext hmem
  · intro hlisted b m n _ _ text htext hmem
    have hrefused := (refused_iff_of_isSpoofing hc).mpr hlisted
    rw [not_refused_of_mem_texts htext hmem] at hrefused
    cases hrefused

/-- The right-to-left override is refused. -/
theorem spoofing_rejected_iff_override :
    isSpoofing (Char.ofNat 0x202E) = true ∧
      ∀ text : String, Char.ofNat 0x202E ∈ text.toList →
        validateTargetHost text = false ∧ BoundedDiagnostic.new text = .error .invalidPayload :=
  have hspoofing : isSpoofing (Char.ofNat 0x202E) = true := by decide
  ⟨hspoofing, (spoofing_rejected_iff (Char.ofNat 0x202E) hspoofing).1.mpr (by decide)⟩

/-- The right-to-left isolate is a bidirectional control and a valid host, which
is accepted as the target of a Service and as the text of an error. -/
theorem isolate_accepted :
    isSpoofing (Char.ofNat 0x2067) = true ∧ isBidiControl (Char.ofNat 0x2067) = true ∧
      validateTargetHost (String.singleton (Char.ofNat 0x2067)) = true ∧
      (∃ d, BoundedDiagnostic.new (String.singleton (Char.ofNat 0x2067)) = .ok d) ∧
      ∀ kind ∈ [MessageType.registerService, .error, .registerReject],
        ∃ b m n, decodeFrame b = .ok (m, n) ∧ m.kind = kind ∧
          ∃ text ∈ m.texts, Char.ofNat 0x2067 ∈ text.toList := by
  have hunlisted : isUnlisted (Char.ofNat 0x2067) = true := by decide
  refine ⟨by decide, by decide, validateTargetHost_singleton hunlisted, ?_,
    fun kind hkind => exists_frame_of_isUnlisted hunlisted hkind⟩
  exact ⟨⟨_, validDiagnostic_singleton hunlisted⟩, BoundedDiagnostic.new_text ⟨_, _⟩⟩

end Eggtunnel
