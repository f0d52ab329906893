import AliasConsole.Text.Casing
import Mathlib.Tactic.Common

/-!
# ASCII texts

Lower casing maps an ASCII text character by character, and two ASCII texts
are equal up to case exactly if their lower cases are equal.
-/

namespace AliasConsole

/-- The text has ASCII characters only. -/
def IsAscii (t : Text) : Prop := ∀ c ∈ t, c.toNat < 0x80

instance : DecidablePred IsAscii := fun t =>
  List.decidableBAll (fun c : Char => c.toNat < 0x80) t

/-- The text has ASCII characters only, none of them a capital letter. -/
def IsLowerAscii (t : Text) : Prop :=
  ∀ c ∈ t, c.toNat < 0x80 ∧ ¬(65 ≤ c.toNat ∧ c.toNat ≤ 90)

instance : DecidablePred IsLowerAscii := fun t =>
  List.decidableBAll (fun c : Char => c.toNat < 0x80 ∧ ¬(65 ≤ c.toNat ∧ c.toNat ≤ 90)) t

variable {t u : Text}

theorem IsAscii.take (ht : IsAscii t) (k : Nat) : IsAscii (t.take k) :=
  fun c hc => ht c (List.mem_of_mem_take hc)

theorem IsLowerAscii.isAscii (ht : IsLowerAscii t) : IsAscii t :=
  fun c hc => (ht c hc).1

theorem lowerFrom_of_isAscii (afterCased : Bool) (ht : IsAscii t) :
    Text.lowerFrom afterCased t = t.map asciiLower := by
  induction t generalizing afterCased with
  | nil => rfl
  | cons c rest ih =>
      have hascii : c.toNat < 0x80 := ht c (by simp)
      have hsigma : c ≠ capitalSigma := by
        intro heq
        rw [heq] at hascii
        exact absurd hascii (by decide)
      have hrest : IsAscii rest := fun d hd => ht d (List.mem_cons_of_mem c hd)
      rw [Text.lowerFrom, if_neg hsigma, lowerChar, if_pos hascii, ih _ hrest]
      rfl

theorem lower_of_isAscii (ht : IsAscii t) : Text.lower t = t.map asciiLower :=
  lowerFrom_of_isAscii false ht

theorem lower_of_isLowerAscii (ht : IsLowerAscii t) : Text.lower t = t := by
  have hkept : ∀ c ∈ t, asciiLower c = id c := by
    intro c hc
    rw [asciiLower, if_neg (by simpa using (ht c hc).2)]
    rfl
  rw [lower_of_isAscii ht.isAscii, List.map_congr_left hkept, List.map_id]

theorem length_lower (ht : IsAscii t) : (Text.lower t).length = t.length := by
  rw [lower_of_isAscii ht, List.length_map]

theorem lower_take (ht : IsAscii t) (k : Nat) :
    Text.lower (t.take k) = (Text.lower t).take k := by
  rw [lower_of_isAscii ht, lower_of_isAscii (ht.take k), List.map_take]

theorem map_foldChar_of_isAscii (ht : IsAscii t) :
    t.map foldChar = (Text.lower t).map fun c => [c] := by
  rw [lower_of_isAscii ht, List.map_map]
  refine List.map_congr_left fun c hc => ?_
  rw [foldChar, if_pos (ht c hc)]
  rfl

/-- Two ASCII texts fold to the same characters exactly if they have the same
lower case. -/
theorem map_foldChar_eq_iff (ht : IsAscii t) (hu : IsAscii u) :
    t.map foldChar = u.map foldChar ↔ Text.lower t = Text.lower u := by
  rw [map_foldChar_of_isAscii ht, map_foldChar_of_isAscii hu]
  refine List.map_inj_right ?_
  intro c d h
  simpa using h

end AliasConsole
