import AliasConsole.Proofs.Registration.Appending
import AliasConsole.Proofs.Registration.Runs
import AliasConsole.Proofs.Resolution.Longest
import Mathlib.Order.Bounds.Basic

/-!
# Literals in any order

A literal is admissible for a line if the line is its text, or goes on with a space
after it.  A line selects the first of its longest admissible literals.  Two admissible
literals of one length have the same text, for both are the beginning of the line.  So
the text that a line selects does not depend on the order of the registrations.
-/

namespace AliasConsole

variable {W : Type}

namespace Literal

/-- The line is the text of the literal, or goes on with a space after it. -/
def IsAdmissible (l : Literal W) (line : Text) : Prop :=
  line = l.text ∨ ∃ rest, line = l.text ++ ' ' :: rest

theorem admits_iff {l : Literal W} {line : Text} :
    l.admits line = true ↔ l.IsAdmissible line := by
  rw [admits, Bool.and_eq_true, List.isPrefixOf_iff_prefix]
  constructor
  · rintro ⟨⟨rest, rfl⟩, hborder⟩
    rw [List.drop_left] at hborder
    cases rest with
    | nil => exact Or.inl (List.append_nil _)
    | cons c more =>
        obtain rfl : c = ' ' := by simpa using hborder
        exact Or.inr ⟨more, rfl⟩
  · rintro (rfl | ⟨rest, rfl⟩)
    · exact ⟨List.prefix_refl _, by rw [List.drop_length]⟩
    · exact ⟨List.prefix_append _ _, by rw [List.drop_left]; rfl⟩

theorem IsAdmissible.isPrefix {l : Literal W} {line : Text} (h : l.IsAdmissible line) :
    l.text <+: line := by
  rcases h with rfl | ⟨rest, rfl⟩
  · exact List.prefix_refl _
  · exact List.prefix_append _ _

end Literal

namespace Registry

variable {r r' : Registry W} {line : Text}

/-- The literal at the index is admissible, and no admissible one is longer. -/
def IsLongestAdmissible (r : Registry W) (line : Text) (index : ℕ) : Prop :=
  ∃ l, r.literals[index]? = some l ∧ l.IsAdmissible line ∧
    ∀ l' ∈ r.literals, l'.IsAdmissible line → l'.text.length ≤ l.text.length

/-- The text of the literal that a line selects. -/
def selectedText? (r : Registry W) (line : Text) : Option Text :=
  (r.resolveLiteral line).bind fun index => r.literals[index]?.map (·.text)

theorem IsLongest.isLeast {index : ℕ} {l : Literal W} (h : IsLongest line r.literals index l) :
    IsLeast {i | r.IsLongestAdmissible line i} index := by
  refine ⟨⟨l, h.getElem?, Literal.admits_iff.mp h.admits, fun l' hl' hadmissible => ?_⟩, ?_⟩
  · exact h.longest l' hl' (Literal.admits_iff.mpr hadmissible)
  · rintro i ⟨l', hl', hadmissible, hlongest⟩
    by_contra hlt
    have hshorter := h.first i (not_le.mp hlt) l' hl' (Literal.admits_iff.mpr hadmissible)
    have hlonger := hlongest l (List.mem_of_getElem? h.getElem?) (Literal.admits_iff.mp h.admits)
    exact absurd hshorter (not_lt_of_ge hlonger)

/-- Admissible literals that have texts are looked for and found. -/
theorem IsSound.resolveLiteral_eq_none_iff (h : r.IsSound) :
    r.resolveLiteral line = none ↔ ∀ l ∈ r.literals, ¬l.IsAdmissible line := by
  rw [Registry.resolveLiteral_eq_none_iff]
  constructor
  · intro hall l hl hadmissible
    obtain ⟨c, hc, -⟩ := h.exists_not_blank l hl
    rw [hall l hl (Literal.admits_iff.mpr hadmissible)] at hc
    exact List.not_mem_nil hc
  · intro hnone l hl hadmits
    exact absurd (Literal.admits_iff.mp hadmits) (hnone l hl)

theorem IsSound.resolveLiteral_eq_some_iff (h : r.IsSound) {index : ℕ} :
    r.resolveLiteral line = some index ↔ IsLeast {i | r.IsLongestAdmissible line i} index := by
  constructor
  · intro hindex
    obtain ⟨l, hlongest, -⟩ := Registry.resolveLiteral_eq_some_iff.mp hindex
    exact hlongest.isLeast
  · intro hleast
    obtain ⟨l, hl, hadmissible, -⟩ := hleast.1
    cases hfound : r.resolveLiteral line with
    | none =>
        have hnone := h.resolveLiteral_eq_none_iff.mp hfound l (List.mem_of_getElem? hl)
        exact absurd hadmissible hnone
    | some found =>
        obtain ⟨l', hlongest, -⟩ := Registry.resolveLiteral_eq_some_iff.mp hfound
        rw [hlongest.isLeast.unique hleast]

theorem selectedText?_of_some {index : ℕ} {l : Literal W}
    (hindex : r.resolveLiteral line = some index) (hl : r.literals[index]? = some l) :
    r.selectedText? line = some l.text := by
  rw [selectedText?, hindex, Option.bind_some, hl, Option.map_some]

theorem IsLongest.text_eq {literals literals' : List (Literal W)} {i j : ℕ} {l l' : Literal W}
    (h : IsLongest line literals i l) (h' : IsLongest line literals' j l')
    (hperm : literals'.Perm literals) : l'.text = l.text := by
  have hmem : l ∈ literals' := hperm.mem_iff.mpr (List.mem_of_getElem? h.getElem?)
  have hmem' : l' ∈ literals := hperm.mem_iff.mp (List.mem_of_getElem? h'.getElem?)
  have hlength : l'.text.length = l.text.length :=
    le_antisymm (h.longest l' hmem' h'.admits) (h'.longest l hmem h.admits)
  have hstart := (Literal.admits_iff.mp h.admits).isPrefix
  have hstart' := (Literal.admits_iff.mp h'.admits).isPrefix
  exact (List.prefix_of_prefix_length_le hstart' hstart hlength.le).eq_of_length hlength

/-- Registries with the same literals in different orders select the same text. -/
theorem selectedText?_of_perm (h : r'.literals.Perm r.literals) (line : Text) :
    r'.selectedText? line = r.selectedText? line := by
  cases hfound : r.resolveLiteral line with
  | none =>
      have hnone : r'.resolveLiteral line = none := by
        rw [Registry.resolveLiteral_eq_none_iff] at hfound ⊢
        intro l hl
        exact hfound l (h.mem_iff.mp hl)
      rw [selectedText?, selectedText?, hfound, hnone]
      rfl
  | some index =>
      obtain ⟨l, hlongest, hne⟩ := Registry.resolveLiteral_eq_some_iff.mp hfound
      have hl : l ∈ r'.literals := h.mem_iff.mpr (List.mem_of_getElem? hlongest.getElem?)
      cases hfound' : r'.resolveLiteral line with
      | none =>
          have hempty := Registry.resolveLiteral_eq_none_iff.mp hfound' l hl hlongest.admits
          exact absurd hempty hne
      | some index' =>
          obtain ⟨l', hlongest', -⟩ := Registry.resolveLiteral_eq_some_iff.mp hfound'
          rw [selectedText?_of_some hfound hlongest.getElem?,
            selectedText?_of_some hfound' hlongest'.getElem?, hlongest.text_eq hlongest' h]

theorem perm_literals_offerAll {requests requests' : List (Registration W (Script W))}
    (h : requests'.Perm requests) :
    ((r.offerAll requests').literals).Perm (r.offerAll requests).literals := by
  rw [offerAll_eq, offerAll_eq]
  exact ((h.filter _).filterMap _).append_left r.literals

/-- Among the literals of any requests a line selects the first of its longest
admissible ones, none if there are none, and the text that it selects is the same
whatever the order of the requests. -/
theorem resolveLiteral_offerAll_empty (requests : List (Registration W (Script W)))
    (line : Text) :
    let r : Registry W := empty.offerAll requests
    (r.resolveLiteral line = none ↔ ∀ l ∈ r.literals, ¬l.IsAdmissible line) ∧
      (∀ index, r.resolveLiteral line = some index ↔
        IsLeast {i | r.IsLongestAdmissible line i} index) ∧
      ∀ requests' : List (Registration W (Script W)), requests'.Perm requests →
        (empty.offerAll requests').selectedText? line = r.selectedText? line := by
  intro r
  have hsound : r.IsSound := isSound_empty.offerAll requests
  refine ⟨hsound.resolveLiteral_eq_none_iff, fun index => hsound.resolveLiteral_eq_some_iff, ?_⟩
  intro requests' hperm
  exact selectedText?_of_perm (perm_literals_offerAll hperm) line

/-- Literals that begin with each other, one of them twice, and a blank one that is
refused. -/
def teleporting : List (Registration Unit (Script Unit)) :=
  [.literal "tele".toList fun _ => Script.say [],
    .literal "tele port".toList fun _ => Script.say [],
    .literal "  ".toList fun _ => Script.say [],
    .literal "tele port".toList fun _ => Script.say []]

theorem resolveLiteral_offerAll_empty_teleporting :
    teleporting.reverse.Perm teleporting ∧
      (empty.offerAll teleporting).resolveLiteral "tele port 3".toList = some 1 ∧
      IsLeast {i | (empty.offerAll teleporting).IsLongestAdmissible "tele port 3".toList i} 1 ∧
      (empty.offerAll teleporting.reverse).selectedText? "tele port 3".toList =
        (empty.offerAll teleporting).selectedText? "tele port 3".toList := by
  obtain ⟨-, hfound, hreordered⟩ :=
    resolveLiteral_offerAll_empty teleporting "tele port 3".toList
  have hindex : (empty.offerAll teleporting).resolveLiteral "tele port 3".toList = some 1 := rfl
  exact ⟨List.reverse_perm _, hindex, (hfound 1).mp hindex,
    hreordered _ (List.reverse_perm _)⟩

end Registry

end AliasConsole
