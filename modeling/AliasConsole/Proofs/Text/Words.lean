import AliasConsole.Text.Basic
import Mathlib.Data.List.Basic

/-!
# Words of a line

A word is a nonempty text without blanks.  Cutting a line yields words only,
and a word in front of a blank, or at the end of the line, is cut off whole.
A blank keeps what stands before it and what stands behind it apart.
-/

namespace AliasConsole

/-- A text that cutting a line leaves in one piece. -/
def IsWord (t : Text) : Prop :=
  t ≠ [] ∧ ∀ c ∈ t, isBlank c = false

instance : DecidablePred IsWord := fun t =>
  decidable_of_iff ((!t.isEmpty && t.all fun c => !isBlank c) = true) (by simp [IsWord])

theorem words_cons_of_blank {c : Char} (hc : isBlank c = true) (rest : Text) :
    Text.words (c :: rest) = Text.words rest := by
  rw [Text.words.eq_def]
  simp [hc]

/-- A word is cut off whole in front of a blank and at the end of the line. -/
theorem words_append_of_isWord {word rest : Text} (hword : IsWord word)
    (hrest : ∀ c ∈ rest.head?, isBlank c = true) :
    Text.words (word ++ rest) = word :: Text.words rest := by
  induction word with
  | nil => exact absurd rfl hword.1
  | cons c more ih =>
      have hc : isBlank c = false := hword.2 c (by simp)
      cases more with
      | nil =>
          cases rest with
          | nil => simp [Text.words, hc]
          | cons d rest =>
              have hd : isBlank d = true := hrest d (by simp)
              simp [Text.words, hc, hd]
      | cons d more =>
          have hd : isBlank d = false := hword.2 d (by simp)
          have htail : IsWord (d :: more) :=
            ⟨by simp, fun x hx => hword.2 x (List.mem_cons_of_mem c hx)⟩
          have hwords := ih htail
          rw [List.cons_append] at hwords
          rw [List.cons_append, List.cons_append, Text.words]
          simp only [hc, hd, hwords, Bool.false_eq_true, if_false]

theorem words_of_isWord {word : Text} (hword : IsWord word) :
    Text.words word = [word] := by
  simpa [Text.words] using @words_append_of_isWord word [] hword (by simp)

theorem words_cons_ne_nil {c : Char} (hc : isBlank c = false) (rest : Text) :
    Text.words (c :: rest) ≠ [] := by
  rw [Text.words.eq_def]
  simp only [hc, Bool.false_eq_true, if_false]
  split
  · exact List.cons_ne_nil _ _
  · split_ifs
    · exact List.cons_ne_nil _ _
    · split <;> exact List.cons_ne_nil _ _

/-- The two sides of a blank are cut into words on their own. -/
theorem words_append_cons_of_blank {c : Char} (hc : isBlank c = true) (front back : Text) :
    Text.words (front ++ c :: back) = Text.words front ++ Text.words back := by
  fun_induction Text.words front with
  | case1 => exact words_cons_of_blank hc back
  | case2 d rest hd ih => rw [List.cons_append, words_cons_of_blank hd, ih]
  | case3 d hd => simp [Text.words, hd, hc]
  | case4 d hd e rest he ih =>
      rw [List.cons_append] at ih
      rw [List.cons_append, List.cons_append, Text.words]
      simp only [hd, he, ih, if_true, if_false, List.cons_append, Bool.false_eq_true]
  | case5 d hd e rest he hnone ih =>
      exact absurd hnone (words_cons_ne_nil (by simpa using he) rest)
  | case6 d hd e rest he word more hwords ih =>
      rw [List.cons_append, hwords, List.cons_append] at ih
      rw [List.cons_append, List.cons_append, Text.words]
      simp only [hd, he, ih, hwords, if_false, List.cons_append, Bool.false_eq_true]

theorem words_append_of_blank {front : Text} (hfront : ∀ c ∈ front.getLast?, isBlank c = true)
    (back : Text) : Text.words (front ++ back) = Text.words front ++ Text.words back := by
  rcases front.eq_nil_or_concat' with rfl | ⟨init, c, rfl⟩
  · rfl
  · have hc : isBlank c = true := hfront c (by simp)
    rw [List.append_assoc, List.singleton_append, words_append_cons_of_blank hc,
      words_append_cons_of_blank hc]
    simp [Text.words]

theorem isWord_of_mem_words {line t : Text} (ht : t ∈ Text.words line) :
    IsWord t := by
  fun_induction Text.words line generalizing t with
  | case1 => simp at ht
  | case2 c rest hc ih => exact ih ht
  | case3 c hc =>
      simp only [List.mem_singleton] at ht
      subst ht
      exact ⟨by simp, by simpa using hc⟩
  | case4 c hc d rest hd ih =>
      rcases List.mem_cons.mp ht with rfl | ht
      · exact ⟨by simp, by simpa using hc⟩
      · exact ih ht
  | case5 c hc d rest hd hwords ih =>
      rw [hwords] at ht
      simp only [List.mem_singleton] at ht
      subst ht
      exact ⟨by simp, by simpa using hc⟩
  | case6 c hc d rest hd word more hwords ih =>
      rw [hwords] at ht
      rcases List.mem_cons.mp ht with rfl | ht
      · have hword : IsWord word := ih (by rw [hwords]; simp)
        refine ⟨by simp, ?_⟩
        intro x hx
        rcases List.mem_cons.mp hx with rfl | hx
        · simpa using hc
        · exact hword.2 x hx
      · exact ih (by rw [hwords]; exact List.mem_cons_of_mem word ht)

theorem subset_of_mem_words {line t : Text} (ht : t ∈ Text.words line) : t ⊆ line := by
  fun_induction Text.words line generalizing t with
  | case1 => simp at ht
  | case2 c rest hc ih => exact List.subset_cons_of_subset c (ih ht)
  | case3 c hc =>
      obtain rfl := List.mem_singleton.mp ht
      exact List.Subset.refl _
  | case4 c hc d rest hd ih =>
      rcases List.mem_cons.mp ht with rfl | ht
      · simp
      · exact List.subset_cons_of_subset c (ih ht)
  | case5 c hc d rest hd hwords ih =>
      obtain rfl := List.mem_singleton.mp (hwords ▸ ht)
      simp
  | case6 c hc d rest hd word more hwords ih =>
      rw [hwords] at ht
      rcases List.mem_cons.mp ht with rfl | ht
      · exact List.cons_subset_cons c (ih (by rw [hwords]; simp))
      · exact List.subset_cons_of_subset c
          (ih (by rw [hwords]; exact List.mem_cons_of_mem word ht))

theorem endsInBlank_append {t u : Text} (hu : u ≠ []) :
    Text.endsInBlank (t ++ u) = Text.endsInBlank u := by
  rw [Text.endsInBlank, Text.endsInBlank, List.getLast?_append_of_ne_nil t hu]

theorem endsInBlank_of_isWord {word : Text} (hword : IsWord word) :
    Text.endsInBlank word = false := by
  rw [Text.endsInBlank, List.getLast?_eq_getLast_of_ne_nil hword.1]
  exact hword.2 _ (List.getLast_mem hword.1)

theorem isWord_of_mem_tokenize {line token : Text} (htoken : token ∈ tokenize line) :
    IsWord token :=
  isWord_of_mem_words htoken

end AliasConsole
