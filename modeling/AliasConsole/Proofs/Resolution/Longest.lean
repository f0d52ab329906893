import AliasConsole.Registry
import Mathlib.Data.Nat.Basic
import Mathlib.Order.Basic
import Mathlib.Tactic.Common

/-!
# Resolving by literal texts

A line selects the longest literal that admits it, and of equally long ones the
first.  A literal without a text selects nothing.
-/

namespace AliasConsole.Registry

variable {W : Type} {line : Text}

/-- The literal admits the line, no literal that admits it is longer, and every
earlier one is shorter. -/
structure IsLongest (line : Text) (literals : List (Literal W)) (index : ℕ)
    (l : Literal W) : Prop where
  getElem? : literals[index]? = some l
  admits : l.admits line = true
  longest : ∀ l' ∈ literals, l'.admits line = true → l'.text.length ≤ l.text.length
  first : ∀ earlier < index, ∀ l', literals[earlier]? = some l' →
    l'.admits line = true → l'.text.length < l.text.length

theorem IsLongest.unique {literals : List (Literal W)} {i j : ℕ} {l l' : Literal W}
    (hi : IsLongest line literals i l) (hj : IsLongest line literals j l') : i = j := by
  have hle := hj.longest l (List.mem_of_getElem? hi.getElem?) hi.admits
  have hge := hi.longest l' (List.mem_of_getElem? hj.getElem?) hj.admits
  rcases Nat.lt_trichotomy i j with hij | heq | hji
  · exact absurd (hj.first i hij l hi.getElem? hi.admits) (not_lt_of_ge hge)
  · exact heq
  · exact absurd (hi.first j hji l' hj.getElem? hj.admits) (not_lt_of_ge hle)

/-- A literal in front that is shorter, or does not admit the line, changes
nothing. -/
theorem IsLongest.cons {literals : List (Literal W)} {index : ℕ} {l first : Literal W}
    (h : IsLongest line literals index l)
    (hfirst : first.admits line = true → first.text.length < l.text.length) :
    IsLongest line (first :: literals) (index + 1) l := by
  refine ⟨h.getElem?, h.admits, ?_, ?_⟩
  · exact List.forall_mem_cons.mpr ⟨fun hadmits => (hfirst hadmits).le, h.longest⟩
  · intro earlier hearlier l' hl' hadmits
    cases earlier with
    | zero =>
        obtain rfl : first = l' := Option.some.inj hl'
        exact hfirst hadmits
    | succ earlier => exact h.first earlier (Nat.lt_of_succ_lt_succ hearlier) l' hl' hadmits

/-- A search that has a best literal of some size keeps it if no other literal
that admits the line is longer, and ends with the longest one otherwise. -/
theorem longestLiteral_cases (line : Text) (best : Option ℕ) (bestSize index : ℕ)
    (literals : List (Literal W)) :
    (longestLiteral line best bestSize index literals = best ∧
        ∀ l ∈ literals, l.admits line = true → l.text.length ≤ bestSize) ∨
      ∃ i l, longestLiteral line best bestSize index literals = some (index + i) ∧
        bestSize < l.text.length ∧ IsLongest line literals i l := by
  induction literals generalizing best bestSize index with
  | nil => exact Or.inl ⟨rfl, by simp⟩
  | cons l rest ih =>
      rw [longestLiteral]
      by_cases hbetter : (bestSize < l.text.length && l.admits line) = true
      · rw [if_pos hbetter]
        simp only [Bool.and_eq_true, decide_eq_true_eq] at hbetter
        obtain ⟨hsize, hadmits⟩ := hbetter
        right
        rcases ih (some index) l.text.length (index + 1) with
          ⟨heq, hrest⟩ | ⟨i, l', heq, hlonger, hbest⟩
        · exact ⟨0, l, heq, hsize, rfl, hadmits, by simpa using hrest, by simp⟩
        · refine ⟨i + 1, l', ?_, hsize.trans hlonger, hbest.cons fun _ => hlonger⟩
          rw [heq, Nat.add_right_comm, Nat.add_assoc]
      · rw [if_neg hbetter]
        have hhead : l.admits line = true → l.text.length ≤ bestSize := by
          intro hadmits
          by_contra hlt
          exact hbetter (by simpa [hadmits] using hlt)
        rcases ih best bestSize (index + 1) with ⟨heq, hrest⟩ | ⟨i, l', heq, hlonger, hbest⟩
        · exact Or.inl ⟨heq, List.forall_mem_cons.mpr ⟨hhead, hrest⟩⟩
        · refine Or.inr ⟨i + 1, l', ?_, hlonger,
            hbest.cons fun hadmits => lt_of_le_of_lt (hhead hadmits) hlonger⟩
          rw [heq, Nat.add_right_comm, Nat.add_assoc]

variable {r : Registry W}

theorem resolveLiteral_eq_none_iff :
    r.resolveLiteral line = none ↔
      ∀ l ∈ r.literals, l.admits line = true → l.text = [] := by
  rcases longestLiteral_cases line none 0 0 r.literals with
    ⟨heq, hall⟩ | ⟨i, l, heq, hlonger, hbest⟩
  · refine iff_of_true heq fun l hl hadmits => ?_
    exact List.length_eq_zero_iff.mp (Nat.le_zero.mp (hall l hl hadmits))
  · refine iff_of_false (by rw [resolveLiteral, heq]; simp) fun hall => ?_
    have hnil := hall l (List.mem_of_getElem? hbest.getElem?) hbest.admits
    rw [hnil] at hlonger
    exact Nat.not_lt_zero _ hlonger

/-- Resolving finds the longest literal with a text that admits the line. -/
theorem resolveLiteral_eq_some_iff {index : ℕ} :
    r.resolveLiteral line = some index ↔
      ∃ l, IsLongest line r.literals index l ∧ l.text ≠ [] := by
  rcases longestLiteral_cases line none 0 0 r.literals with
    ⟨heq, hall⟩ | ⟨i, l, heq, hlonger, hbest⟩
  · refine iff_of_false (by rw [resolveLiteral, heq]; simp) ?_
    rintro ⟨l, hbest, hne⟩
    have hle := hall l (List.mem_of_getElem? hbest.getElem?) hbest.admits
    exact hne (List.length_eq_zero_iff.mp (Nat.le_zero.mp hle))
  · have hne : l.text ≠ [] := List.ne_nil_of_length_pos hlonger
    rw [resolveLiteral, heq, Nat.zero_add, Option.some.injEq]
    constructor
    · rintro rfl
      exact ⟨l, hbest, hne⟩
    · rintro ⟨l', hbest', -⟩
      exact hbest.unique hbest'

end AliasConsole.Registry
