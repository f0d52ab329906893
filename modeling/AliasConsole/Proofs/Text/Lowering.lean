import AliasConsole.Text.Casing
import Mathlib.Tactic.Common

/-!
# Lower casing texts of any script

Lower casing leaves no character behind that it would change again, so lower casing a
text twice is lower casing it once.  It maps a text character by character except for
the capital sigma, which looks at what follows.  The lower case of a text is therefore
the beginning of the lower case of every longer text, unless the text ends in a final
sigma that is not final in the longer text.
-/

namespace AliasConsole

/-! ## Lower casing twice -/

/-- The second run moves no image of the first one: the images lie beside it or, in a
run of every second code point, between its members. -/
def ShiftRun.misses (a b : ShiftRun) : Bool :=
  (a.2.2.2 + (a.2.1 - a.1)).blt b.1 || b.2.1.blt a.2.2.2 ||
    ((a.2.2.1.beq 2 || a.1.beq a.2.1) && b.2.2.1.beq 2 && ((a.2.2.2 + b.1) % 2).beq 1)

theorem covers_eq_false_of_misses {a b : ShiftRun} (h : a.misses b = true) {n : Nat}
    (hn : a.covers n = true) : b.covers (a.2.2.2 + (n - a.1)) = false := by
  obtain ⟨first, last, step, image⟩ := a
  obtain ⟨first', last', step', image'⟩ := b
  simp only [ShiftRun.misses, ShiftRun.covers, Bool.or_eq_true, Bool.and_eq_true, Nat.blt_eq,
    Nat.beq_eq, decide_eq_true_eq, beq_iff_eq] at h hn
  simp only [ShiftRun.covers, Bool.and_eq_false_iff, decide_eq_false_iff_not, beq_eq_false_iff_ne]
  obtain ⟨⟨hfirst, hlast⟩, hstep⟩ := hn
  rcases h with (hbefore | hafter) | ⟨⟨rfl | rfl, rfl⟩, hparity⟩
  · omega
  · omega
  · omega
  · omega

theorem misses_lowerRuns :
    (lowerRuns.all fun a => lowerRuns.all fun b => a.misses b) = true := by
  decide +kernel

/-- No image of a run is an ASCII capital or the capital with a dot. -/
theorem image_lowerRuns :
    (lowerRuns.all fun a => Nat.blt 90 a.2.2.2 &&
      (Nat.blt 0x130 a.2.2.2 || (a.2.2.2 + (a.2.1 - a.1)).blt 0x130)) = true := by
  decide +kernel

/-- No run moves a code point that a run has moved, or that none moves. -/
theorem find?_shifted_lowerRuns (n : Nat) :
    lowerRuns.find? (ShiftRun.covers · (shifted lowerRuns n)) = none := by
  rw [shifted]
  cases hrun : lowerRuns.find? (ShiftRun.covers · n) with
  | none => exact hrun
  | some a =>
      have ha := List.mem_of_find?_eq_some hrun
      have hcovers := List.find?_some hrun
      rw [List.find?_eq_none]
      intro b hb
      have hmisses := List.all_eq_true.mp (List.all_eq_true.mp misses_lowerRuns a ha) b hb
      simpa using covers_eq_false_of_misses hmisses hcovers

theorem shifted_lowerRuns_cases (n : Nat) :
    shifted lowerRuns n = n ∨ 90 < shifted lowerRuns n ∧ shifted lowerRuns n ≠ 0x130 := by
  rw [shifted]
  cases hrun : lowerRuns.find? (ShiftRun.covers · n) with
  | none => exact Or.inl rfl
  | some a =>
      have himage := List.all_eq_true.mp image_lowerRuns a (List.mem_of_find?_eq_some hrun)
      have hcovers := List.find?_some hrun
      simp only [Bool.and_eq_true, Bool.or_eq_true, Nat.blt_eq] at himage
      simp only [ShiftRun.covers, Bool.and_eq_true, decide_eq_true_eq] at hcovers
      right
      dsimp only
      omega

/-- Lower casing keeps the character wherever it stands. -/
def IsLower (c : Char) : Prop :=
  c ≠ capitalSigma ∧ lowerChar c = [c]

theorem isLower_of_ascii {c : Char} (hascii : c.toNat < 0x80)
    (hcapital : ¬(65 ≤ c.toNat ∧ c.toNat ≤ 90)) : IsLower c := by
  constructor
  · rintro rfl
    exact absurd hascii (by decide)
  · rw [lowerChar, if_pos hascii, asciiLower, if_neg (by simpa using hcapital)]

theorem isLower_of_find? {c : Char} (hrun : lowerRuns.find? (ShiftRun.covers · c.toNat) = none)
    (hdotted : c.toNat ≠ 0x130) (hcapital : ¬(65 ≤ c.toNat ∧ c.toNat ≤ 90)) : IsLower c := by
  by_cases hascii : c.toNat < 0x80
  · exact isLower_of_ascii hascii hcapital
  · constructor
    · rintro rfl
      exact absurd hrun (by decide)
    · rw [lowerChar, if_neg hascii, if_neg hdotted, shifted, hrun, Char.ofNat_toNat]

/-- The code point of a number, which is zero if the number is no code point. -/
theorem toNat_ofNat_cases (n : Nat) : (Char.ofNat n).toNat = n ∨ (Char.ofNat n).toNat = 0 := by
  by_cases hvalid : n.isValidChar
  · left
    rw [Char.ofNat, dif_pos hvalid]
    rfl
  · right
    rw [Char.ofNat, dif_neg hvalid]
    rfl

/-- The lower case of a character has no character that lower casing changes. -/
theorem isLower_of_mem_lowerChar {c d : Char} (hd : d ∈ lowerChar c) : IsLower d := by
  rw [lowerChar] at hd
  split_ifs at hd with hascii hdotted
  · obtain rfl := List.mem_singleton.mp hd
    rw [asciiLower]
    split_ifs with hcapital
    · simp only [Bool.and_eq_true, decide_eq_true_eq] at hcapital
      have hcode := toNat_ofNat_cases (c.toNat + 32)
      exact isLower_of_ascii (by omega) (by omega)
    · exact isLower_of_ascii hascii (by simpa using hcapital)
  · simp only [List.mem_cons, List.not_mem_nil, or_false] at hd
    rcases hd with rfl | rfl
    · exact isLower_of_ascii (by decide) (by decide)
    · exact ⟨by decide, by decide⟩
  · obtain rfl := List.mem_singleton.mp hd
    have himage := shifted_lowerRuns_cases c.toNat
    rcases toNat_ofNat_cases (shifted lowerRuns c.toNat) with hcode | hcode
    · refine isLower_of_find? ?_ (by omega) (by omega)
      rw [hcode]
      exact find?_shifted_lowerRuns c.toNat
    · exact isLower_of_ascii (by omega) (by omega)

theorem isLower_of_mem_lowerFrom {afterCased : Bool} {t : Text} {d : Char}
    (hd : d ∈ Text.lowerFrom afterCased t) : IsLower d := by
  induction t generalizing afterCased with
  | nil => cases hd
  | cons c rest ih =>
      rw [Text.lowerFrom, List.mem_append] at hd
      rcases hd with hd | hd
      · split_ifs at hd
        · obtain rfl := List.mem_singleton.mp hd
          rw [lowerSigma]
          split_ifs
          · exact ⟨by decide, by decide⟩
          · exact ⟨by decide, by decide⟩
        · exact isLower_of_mem_lowerChar hd
      · exact ih hd

theorem lowerFrom_of_isLower {t : Text} (ht : ∀ c ∈ t, IsLower c) (afterCased : Bool) :
    Text.lowerFrom afterCased t = t := by
  induction t generalizing afterCased with
  | nil => rfl
  | cons c rest ih =>
      obtain ⟨⟨hsigma, hkept⟩, hrest⟩ := List.forall_mem_cons.mp ht
      rw [Text.lowerFrom, if_neg hsigma, hkept, ih hrest, List.singleton_append]

theorem lower_lower (t : Text) : Text.lower (Text.lower t) = Text.lower t :=
  lowerFrom_of_isLower (fun _ hd => isLower_of_mem_lowerFrom hd) false

theorem length_le_length_lower (t : Text) : t.length ≤ (Text.lower t).length := by
  have hchar : ∀ c : Char, 1 ≤ (lowerChar c).length := by
    intro c
    rw [lowerChar]
    split_ifs <;> simp
  have hfrom : ∀ afterCased, t.length ≤ (Text.lowerFrom afterCased t).length := by
    induction t with
    | nil => exact fun _ => Nat.zero_le _
    | cons c rest ih =>
        intro afterCased
        have hrest := ih (if isCaseIgnorable c then afterCased else isCased c)
        rw [Text.lowerFrom, List.length_append, List.length_cons, Nat.add_comm]
        refine Nat.add_le_add ?_ hrest
        split_ifs
        · exact Nat.le_refl _
        · exact hchar c
  exact hfrom false

/-! ## Lower casing a beginning -/

/-- Whether the last character of a text that is not ignorable has a case; `afterCased`
is the answer for a text of ignorable characters. -/
def endsCased (afterCased : Bool) (t : Text) : Bool :=
  t.foldl (fun before c => if isCaseIgnorable c then before else isCased c) afterCased

/-- The text ends in a capital sigma after a character with a case, ignorable
characters apart; `afterCased` says whether what stands before the text ends in a
character with a case. -/
def EndsInSigma (afterCased : Bool) (t : Text) : Prop :=
  ∃ before after, t = before ++ capitalSigma :: after ∧ endsCased afterCased before = true ∧
    ∀ c ∈ after, isCaseIgnorable c = true

section Beginning

variable {afterCased : Bool} {c : Char} {t rest more : Text}

theorem endsInSigma_cons_iff :
    EndsInSigma afterCased (c :: rest) ↔
      (c = capitalSigma ∧ afterCased = true ∧ ∀ d ∈ rest, isCaseIgnorable d = true) ∨
        EndsInSigma (if isCaseIgnorable c then afterCased else isCased c) rest := by
  constructor
  · rintro ⟨before, after, hsplit, hbefore, hafter⟩
    cases before with
    | nil =>
        obtain ⟨rfl, rfl⟩ := List.cons.inj hsplit
        exact Or.inl ⟨rfl, hbefore, hafter⟩
    | cons d before =>
        obtain ⟨rfl, rfl⟩ := List.cons.inj hsplit
        exact Or.inr ⟨before, after, rfl, hbefore, hafter⟩
  · rintro (⟨rfl, hcased, hrest⟩ | ⟨before, after, rfl, hbefore, hafter⟩)
    · exact ⟨[], rest, rfl, hcased, hrest⟩
    · exact ⟨c :: before, after, rfl, hbefore, hafter⟩

theorem startsCased_append_of_ignorable (ht : ∀ c ∈ t, isCaseIgnorable c = true) (more : Text) :
    startsCased (t ++ more) = startsCased more := by
  induction t with
  | nil => rfl
  | cons c rest ih =>
      obtain ⟨hc, hrest⟩ := List.forall_mem_cons.mp ht
      rw [List.cons_append, startsCased, if_pos hc, ih hrest]

theorem startsCased_append_of_not_ignorable (ht : ¬∀ c ∈ t, isCaseIgnorable c = true)
    (more : Text) : startsCased (t ++ more) = startsCased t := by
  induction t with
  | nil => exact absurd (List.forall_mem_nil _) ht
  | cons c rest ih =>
      rw [List.cons_append, startsCased, startsCased]
      by_cases hc : isCaseIgnorable c = true
      · rw [if_pos hc, if_pos hc]
        exact ih fun hrest => ht (List.forall_mem_cons.mpr ⟨hc, hrest⟩)
      · rw [if_neg hc, if_neg hc]

/-- A sigma changes its form in a longer text exactly if it is final no more. -/
theorem lowerSigma_append_iff :
    lowerSigma afterCased (startsCased rest) = lowerSigma afterCased (startsCased (rest ++ more)) ↔
      ¬((afterCased = true ∧ ∀ d ∈ rest, isCaseIgnorable d = true) ∧
        startsCased more = true) := by
  by_cases hrest : ∀ d ∈ rest, isCaseIgnorable d = true
  · have hfinal : startsCased rest = false := by
      simpa [startsCased] using startsCased_append_of_ignorable hrest []
    rw [startsCased_append_of_ignorable hrest, hfinal]
    cases afterCased with
    | false => simp [lowerSigma]
    | true =>
        cases startsCased more with
        | false => simp
        | true => exact iff_of_false (by decide) fun h => h ⟨⟨rfl, hrest⟩, rfl⟩
  · rw [startsCased_append_of_not_ignorable hrest]
    exact iff_of_true rfl fun h => hrest h.1.2

/-- The lower case of a text starts the lower case of a longer text unless the text ends
in a final sigma that has a character with a case behind it in the longer text. -/
theorem lowerFrom_isPrefix_iff :
    Text.lowerFrom afterCased t <+: Text.lowerFrom afterCased (t ++ more) ↔
      ¬(EndsInSigma afterCased t ∧ startsCased more = true) := by
  induction t generalizing afterCased with
  | nil =>
      refine iff_of_true (List.nil_prefix) ?_
      rintro ⟨⟨before, after, hsplit, -⟩, -⟩
      exact List.append_ne_nil_of_right_ne_nil before (List.cons_ne_nil _ _) hsplit.symm
  | cons c rest ih =>
      rw [List.cons_append, Text.lowerFrom, Text.lowerFrom, endsInSigma_cons_iff]
      by_cases hc : c = capitalSigma
      · rw [if_pos hc, if_pos hc, List.singleton_append, List.singleton_append,
          List.cons_prefix_cons, lowerSigma_append_iff, ih]
        tauto
      · rw [if_neg hc, if_neg hc, List.prefix_append_right_inj, ih]
        tauto

theorem lower_isPrefix_iff :
    Text.lower t <+: Text.lower (t ++ more) ↔
      ¬(EndsInSigma false t ∧ startsCased more = true) :=
  lowerFrom_isPrefix_iff

end Beginning

end AliasConsole
