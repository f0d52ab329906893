import AliasConsole.Proofs.Text.Words
import Mathlib.Data.List.DropRight

/-!
# The current token

A line is what stands before its current token, and then the current token.  What stands
before is empty or ends in a blank, so it is cut into words on its own, whatever stands
behind it.  A word in the place of the current token therefore takes the place of the last
token of the line, or comes behind all tokens if the current token is empty, and the tokens
before it stay as they are.
-/

namespace AliasConsole

/-- The line with another text in the place of its current token. -/
def replaceCurrent (line new : Text) : Text :=
  line.rdrop (currentToken line).length ++ new

/-- Every line is a text that is empty or ends in a blank, and behind it a text without
blanks. -/
theorem exists_eq_append_blankFree (line : Text) :
    ∃ front token, line = front ++ token ∧ (∀ c ∈ front.getLast?, isBlank c = true) ∧
      ∀ c ∈ token, isBlank c = false := by
  let inWord : Char → Bool := fun c => !isBlank c
  refine ⟨line.rdropWhile inWord, line.rtakeWhile inWord,
    List.rdropWhile_append_rtakeWhile.symm, fun c hc => ?_, fun c hc => ?_⟩
  · obtain ⟨hne, rfl⟩ := List.mem_getLast?_eq_getLast hc
    simpa [inWord] using List.rdropWhile_last_not inWord line hne
  · simpa [inWord] using List.mem_rtakeWhile_imp hc

theorem endsWithSpace_append_of_isWord (front : Text) {word : Text} (hword : IsWord word) :
    endsWithSpace (front ++ word) = false := by
  rw [endsWithSpace, endsInBlank_append hword.1, endsInBlank_of_isWord hword]

section Parts

variable {front token : Text} (hfront : ∀ c ∈ front.getLast?, isBlank c = true)

include hfront

theorem endsWithSpace_of_ne_nil (hne : front ≠ []) : endsWithSpace front = true := by
  have hlast := List.getLast?_eq_getLast_of_ne_nil hne
  rw [endsWithSpace, Text.endsInBlank, hlast]
  exact hfront _ hlast

theorem tokenize_append_of_isWord (hword : IsWord token) :
    tokenize (front ++ token) = tokenize front ++ [token] := by
  rw [tokenize, words_append_of_blank hfront, words_of_isWord hword]
  rfl

theorem currentToken_append (htoken : ∀ c ∈ token, isBlank c = false) :
    currentToken (front ++ token) = token := by
  by_cases hnil : token = []
  · rw [hnil, List.append_nil, currentToken]
    by_cases hempty : front = []
    · rw [hempty]
      rfl
    · rw [endsWithSpace_of_ne_nil hfront hempty, Bool.or_true, if_pos rfl]
  · have hword : IsWord token := ⟨hnil, htoken⟩
    have hne : (front ++ token).isEmpty = false := by simp [hnil]
    rw [currentToken, hne, endsWithSpace_append_of_isWord front hword, Bool.or_self,
      if_neg Bool.false_ne_true, tokenize_append_of_isWord hfront hword, List.getLastD_concat]

theorem replaceCurrent_append (htoken : ∀ c ∈ token, isBlank c = false) (new : Text) :
    replaceCurrent (front ++ token) new = front ++ new := by
  rw [replaceCurrent, currentToken_append hfront htoken, List.rdrop, List.length_append,
    Nat.add_sub_cancel, List.take_left]

end Parts

/-- If a line with tokens does not end in a blank, a word can take the place of its last
token. -/
theorem exists_tokenize_eq_concat {line : Text} (hne : tokenize line ≠ [])
    (hspace : endsWithSpace line = false) :
    ∃ before typed, tokenize line = before ++ [typed] ∧
      ∀ word, IsWord word → tokenize (replaceCurrent line word) = before ++ [word] ∧
        endsWithSpace (replaceCurrent line word) = false := by
  obtain ⟨front, token, rfl, hfront, htoken⟩ := exists_eq_append_blankFree line
  have htokenNe : token ≠ [] := by
    rintro rfl
    rw [List.append_nil] at hne hspace
    by_cases hnil : front = []
    · exact hne (by rw [hnil]; rfl)
    · rw [endsWithSpace_of_ne_nil hfront hnil] at hspace
      cases hspace
  refine ⟨tokenize front, token, tokenize_append_of_isWord hfront ⟨htokenNe, htoken⟩,
    fun word hword => ?_⟩
  rw [replaceCurrent_append hfront htoken]
  exact ⟨tokenize_append_of_isWord hfront hword, endsWithSpace_append_of_isWord front hword⟩

/-- The current token of a line that is not empty and does not end in a blank is its last
token.  It always stands at the end of the line.  A word in its place is the current token
of the new line; it replaces the last token if the current token was not empty, and comes
behind all tokens if it was. -/
theorem tokenize_replaceCurrent (line : Text) :
    (line ≠ [] → endsWithSpace line = false →
        (tokenize line).getLast? = some (currentToken line)) ∧
      currentToken line <:+ line ∧
      ∀ word, IsWord word →
        (currentToken line ≠ [] → ∃ before, tokenize line = before ++ [currentToken line] ∧
          tokenize (replaceCurrent line word) = before ++ [word]) ∧
        (currentToken line = [] →
          tokenize (replaceCurrent line word) = tokenize line ++ [word]) ∧
        currentToken (replaceCurrent line word) = word := by
  obtain ⟨front, token, rfl, hfront, htoken⟩ := exists_eq_append_blankFree line
  rw [currentToken_append hfront htoken]
  have hlast : token ≠ [] → tokenize (front ++ token) = tokenize front ++ [token] :=
    fun hne => tokenize_append_of_isWord hfront ⟨hne, htoken⟩
  refine ⟨fun hne hspace => ?_, List.suffix_append front token, fun word hword => ?_⟩
  · have htokenNe : token ≠ [] := by
      rintro rfl
      rw [List.append_nil] at hne hspace
      rw [endsWithSpace_of_ne_nil hfront hne] at hspace
      cases hspace
    rw [hlast htokenNe, List.getLast?_concat]
  · have hnew := tokenize_append_of_isWord hfront hword
    rw [replaceCurrent_append hfront htoken]
    refine ⟨fun hne => ⟨tokenize front, hlast hne, hnew⟩, fun hnil => ?_,
      currentToken_append hfront hword.2⟩
    rw [hnew, hnil, List.append_nil]

/-- A token behind a wide blank is replaced, and a wide blank at the end of the line makes
the word a new token. -/
theorem tokenize_replaceCurrent_wide :
    IsWord "télé".toList ∧ endsWithSpace " go\u3000TE".toList = false ∧
      (tokenize " go\u3000TE".toList).getLast? = some (currentToken " go\u3000TE".toList) ∧
      (currentToken " go\u3000TE".toList ≠ [] ∧
        ∃ before, tokenize " go\u3000TE".toList =
            before ++ [currentToken " go\u3000TE".toList] ∧
          tokenize (replaceCurrent " go\u3000TE".toList "télé".toList) =
            before ++ ["télé".toList]) ∧
      (currentToken "go\u3000".toList = [] ∧
        tokenize (replaceCurrent "go\u3000".toList "télé".toList) =
          tokenize "go\u3000".toList ++ ["télé".toList]) := by
  have hword : IsWord "télé".toList := by decide
  have hspace : endsWithSpace " go\u3000TE".toList = false := by decide
  have hcurrent : currentToken " go\u3000TE".toList ≠ [] := by decide
  have hnone : currentToken "go\u3000".toList = [] := by decide
  obtain ⟨hlast, -, hreplaced⟩ := tokenize_replaceCurrent " go\u3000TE".toList
  obtain ⟨-, -, hadded⟩ := tokenize_replaceCurrent "go\u3000".toList
  exact ⟨hword, hspace, hlast (by decide) hspace,
    ⟨hcurrent, (hreplaced _ hword).1 hcurrent⟩, hnone, (hadded _ hword).2.1 hnone⟩

end AliasConsole
