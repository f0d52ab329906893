import AliasConsole.Decimal.Reading
import Mathlib.Data.List.DropRight

/-!
# Reading a written number

Trimming drops blanks at both ends of a text, and reading a number drops its margins in
the same way.  What is dropped at an end is not there any more, so trimming a trimmed
text does nothing.  The decimal digits of a number are read as that number unless they
are too many.
-/

namespace AliasConsole

/-- A text without the characters of a kind at its ends. -/
def Text.without (p : Char → Bool) (t : Text) : Text := (t.dropWhile p).rdropWhile p

theorem trim_eq (t : Text) : Text.trim t = t.without isBlank := rfl

section Trimming

variable {p : Char → Bool} {t : Text}

theorem without_of_forall (h : ∀ c ∈ t, p c = false) : t.without p = t := by
  have hstart : t.dropWhile p = t := by
    refine List.dropWhile_eq_self_iff.mpr fun hl => ?_
    rw [h _ (List.getElem_mem hl)]
    exact Bool.false_ne_true
  rw [Text.without, hstart]
  refine List.rdropWhile_eq_self_iff.mpr fun hne => ?_
  rw [h _ (List.getLast_mem hne)]
  exact Bool.false_ne_true

/-- The start of a text stays the start when its end is trimmed. -/
theorem without_without (p : Char → Bool) (t : Text) :
    (t.without p).without p = t.without p := by
  have hstart : (t.without p).dropWhile p = t.without p := by
    have hinitial : t.without p <+: t.dropWhile p := List.rdropWhile_prefix p _
    refine List.dropWhile_eq_self_iff.mpr fun hl => ?_
    rw [hinitial.getElem hl]
    exact List.dropWhile_eq_self_iff.mp (List.dropWhile_idempotent p t) _
  rw [Text.without, hstart]
  exact List.rdropWhile_idempotent p _

theorem trim_trim (t : Text) : Text.trim (Text.trim t) = Text.trim t :=
  without_without isBlank t

theorem trim_of_blank (h : ∀ c ∈ t, isBlank c = true) : Text.trim t = [] := by
  rw [trim_eq, Text.without, List.dropWhile_eq_nil_iff.mpr h]
  rfl

end Trimming

theorem isBlank_of_isDigit {c : Char} (h : c.isDigit = true) : isBlank c = false := by
  have hrange : 48 ≤ c.toNat ∧ c.toNat ≤ 57 := Char.isDigit_iff_toNat.mp h
  simp only [isBlank, inRanges, blankRanges, List.any_cons, List.any_nil, Bool.or_false,
    Bool.or_eq_false_iff, Bool.and_eq_false_iff, decide_eq_false_iff_not]
  omega

namespace Decimal

variable {t : Text}

theorem withoutMargins_eq (t : Text) : withoutMargins t = t.without isMargin := rfl

theorem digitValue?_of_isDigit {c : Char} (h : c.isDigit = true) :
    digitValue? c = some (c.toNat - '0'.toNat) := by
  have hrange : 48 ≤ c.toNat ∧ c.toNat ≤ 57 := Char.isDigit_iff_toNat.mp h
  rw [digitValue?, digitZeros, List.find?_cons_of_pos]
  · rfl
  · simpa using hrange

section Digits

variable (h : ∀ c ∈ t, c.isDigit = true)

include h

theorem digitRunFrom_of_isDigit (afterDigit : Bool) :
    digitRunFrom afterDigit t = (t.map fun c => c.toNat - '0'.toNat, []) := by
  induction t generalizing afterDigit with
  | nil => rfl
  | cons c rest ih =>
      obtain ⟨hc, hrest⟩ := List.forall_mem_cons.mp h
      rw [digitRunFrom, digitValue?_of_isDigit hc]
      simp only [ih hrest, List.map_cons]

theorem unsigned_of_isDigit : unsigned t = (false, t) := by
  rw [unsigned.eq_def]
  split
  · exact absurd (h '-' List.mem_cons_self) (by decide)
  · exact absurd (h '+' List.mem_cons_self) (by decide)
  · rfl

theorem withoutMargins_of_isDigit : withoutMargins t = t := by
  rw [withoutMargins_eq]
  refine without_of_forall fun c hc => ?_
  rw [isMargin, isBlank_of_isDigit (h c hc), Bool.false_and]

theorem readInteger_of_isDigit (hne : t ≠ []) (hlength : t.length ≤ maxIntegerDigits) :
    readInteger t = .ok (Nat.ofDigitChars 10 t 0) := by
  have hvalue : ofDigits (t.map fun c => c.toNat - '0'.toNat) = Nat.ofDigitChars 10 t 0 := by
    rw [ofDigits, List.foldl_map]
    rfl
  rw [readInteger, withoutMargins_of_isDigit h, unsigned_of_isDigit h]
  simp only [digitRun, digitRunFrom_of_isDigit h, hvalue]
  rw [if_neg (by simpa using hne), if_neg (by simpa using hlength)]
  rfl

end Digits

theorem readInteger_ofNat {n : Nat} (h : (Text.ofNat n).length ≤ maxIntegerDigits) :
    readInteger (Text.ofNat n) = .ok n := by
  have hdigits : ∀ c ∈ Text.ofNat n, c.isDigit = true := fun c hc =>
    Nat.isDigit_of_mem_toDigits (by decide) (by decide) hc
  rw [readInteger_of_isDigit hdigits Nat.toDigits_ne_nil h, Text.ofNat,
    Nat.ofDigitChars_ten_toDigits]

end Decimal

end AliasConsole
