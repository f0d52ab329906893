import AliasConsole.Text.Basic
import Mathlib.Tactic.Common

/-!
# Pieces and joins

Texts without the separator that are joined by it are the pieces of what they
are joined to, and the pieces of a text, joined again, are the text.
-/

namespace AliasConsole

variable {separator : Char} {t rest : Text}

theorem pieces_of_notMem (ht : separator ∉ t) : Text.pieces separator t = [t] := by
  induction t with
  | nil => rfl
  | cons c more ih =>
      obtain ⟨hc, hmore⟩ := not_or.mp (List.mem_cons.not.mp ht)
      rw [Text.pieces, if_neg (Ne.symm hc), ih hmore]

/-- The first piece ends at the first separator. -/
theorem pieces_append_cons (ht : separator ∉ t) (rest : Text) :
    Text.pieces separator (t ++ separator :: rest) = t :: Text.pieces separator rest := by
  induction t with
  | nil => rw [List.nil_append, Text.pieces, if_pos rfl]
  | cons c more ih =>
      obtain ⟨hc, hmore⟩ := not_or.mp (List.mem_cons.not.mp ht)
      rw [List.cons_append, Text.pieces, if_neg (Ne.symm hc), ih hmore]

theorem pieces_joined {texts : List Text} (hne : texts ≠ []) (h : ∀ t ∈ texts, separator ∉ t) :
    Text.pieces separator (Text.joined [separator] texts) = texts := by
  fun_induction Text.joined [separator] texts with
  | case1 => exact absurd rfl hne
  | case2 t => exact pieces_of_notMem (h t (by simp))
  | case3 t u more ih =>
      have hrest := ih (by simp) fun x hx => h x (List.mem_cons_of_mem t hx)
      rw [List.append_assoc, List.singleton_append, pieces_append_cons (h t (by simp)), hrest]

theorem joined_cons (c : Char) (separator first : Text) (more : List Text) :
    Text.joined separator ((c :: first) :: more) = c :: Text.joined separator (first :: more) := by
  cases more <;> rfl

theorem exists_joined_cons (separator first : Text) (more : List Text) :
    ∃ after, Text.joined separator (first :: more) = first ++ after := by
  cases more with
  | nil => exact ⟨[], (List.append_nil first).symm⟩
  | cons second rest => exact ⟨_, List.append_assoc _ _ _⟩

/-- The texts before a place come first, each with the separator behind it. -/
theorem joined_eq_flatMap_append (separator : Text) {texts : List Text} {j : Nat}
    (h : j < texts.length) :
    Text.joined separator texts =
      ((texts.take j).flatMap fun t => t ++ separator) ++
        Text.joined separator (texts.drop j) := by
  induction j generalizing texts with
  | zero => rfl
  | succ j ih =>
      obtain _ | ⟨first, _ | ⟨second, more⟩⟩ := texts
      · cases h
      · exact absurd h (by simp)
      · rw [Text.joined, ih (Nat.lt_of_succ_lt_succ h), List.take_succ_cons, List.flatMap_cons,
          List.drop_succ_cons, List.append_assoc _ _ (Text.joined _ _)]

/-- The pieces of a text make up the text, and none of them has the separator. -/
theorem joined_pieces (separator : Char) (t : Text) :
    Text.pieces separator t ≠ [] ∧ Text.joined [separator] (Text.pieces separator t) = t ∧
      ∀ piece ∈ Text.pieces separator t, separator ∉ piece := by
  induction t with
  | nil => exact ⟨List.cons_ne_nil _ _, rfl, by simp [Text.pieces]⟩
  | cons c rest ih =>
      obtain ⟨hne, hjoined, hfree⟩ := ih
      obtain ⟨first, more, hpieces⟩ := List.exists_cons_of_ne_nil hne
      rw [hpieces] at hjoined hfree
      rw [Text.pieces, hpieces]
      by_cases hc : c = separator
      · rw [if_pos hc]
        refine ⟨List.cons_ne_nil _ _, ?_, ?_⟩
        · rw [Text.joined, hjoined, hc]
          rfl
        · exact List.forall_mem_cons.mpr ⟨List.not_mem_nil, hfree⟩
      · rw [if_neg hc]
        obtain ⟨hfirst, hmore⟩ := List.forall_mem_cons.mp hfree
        refine ⟨List.cons_ne_nil _ _, ?_, ?_⟩
        · rw [joined_cons, hjoined]
        · have hseparator : separator ∉ c :: first :=
            List.not_mem_cons_of_ne_of_not_mem (Ne.symm hc) hfirst
          exact List.forall_mem_cons.mpr ⟨hseparator, hmore⟩

/-- A character that is neither in the separator nor in a text of the list is not
in the text that they are joined to. -/
theorem notMem_joined {c : Char} {separator : Text} {texts : List Text} (hseparator : c ∉ separator)
    (h : ∀ t ∈ texts, c ∉ t) : c ∉ Text.joined separator texts := by
  fun_induction Text.joined separator texts with
  | case1 => exact List.not_mem_nil
  | case2 t => exact h t (by simp)
  | case3 t u more ih =>
      have hrest := ih fun x hx => h x (List.mem_cons_of_mem t hx)
      simp [h t (by simp), hseparator, hrest]

end AliasConsole
