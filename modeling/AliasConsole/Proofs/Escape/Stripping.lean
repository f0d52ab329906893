import AliasConsole.Escape
import Mathlib.Data.List.Infix
import Mathlib.Data.Nat.Notation
import Mathlib.Tactic.Common

/-!
# Stripping escape sequences

A sequence has the escape character at its start and nowhere else, and a letter at its
end and nowhere else.  So no sequence begins within another one, and stripping, which
goes through a text once, meets every sequence that stands in it.  A character that
cannot stand within a sequence keeps what is stripped before it and what is stripped
behind it apart; the escape character is one of them, so the sequences that a style puts
around a text are stripped off again, whatever the text is.
-/

namespace AliasConsole

/-! ## Sequences -/

/-- The escape character, an opening bracket, digits and semicolons, and one ASCII letter. -/
def IsSequence (t : Text) : Prop :=
  ∃ (parameters : Text) (letter : Char), t = escapeChar :: '[' :: (parameters ++ [letter]) ∧
    (∀ c ∈ parameters, isParameterChar c = true) ∧ isAsciiLetter letter = true

/-- The text begins with a sequence. -/
def BeginsSequence (t : Text) : Prop := ∃ s, IsSequence s ∧ s <+: t

/-- The character may stand in a sequence behind its start. -/
def continuesSequence (c : Char) : Bool := c == '[' || isParameterChar c || isAsciiLetter c

variable {s t u front back rest : Text} {c : Char} {n : ℕ}

theorem isAsciiLetter_eq_false_of_isParameterChar (h : isParameterChar c = true) :
    isAsciiLetter c = false := by
  simp only [isParameterChar, isAsciiLetter, Bool.or_eq_true, Bool.and_eq_true,
    decide_eq_true_eq, beq_iff_eq, Char.le_def, UInt32.le_iff_toNat_le, Bool.or_eq_false_iff,
    Bool.and_eq_false_iff, decide_eq_false_iff_not] at h ⊢
  rcases h with h | rfl
  · simp at h ⊢
    omega
  · decide

theorem IsSequence.continues (h : IsSequence (c :: s)) :
    c = escapeChar ∧ ∀ d ∈ s, continuesSequence d = true := by
  obtain ⟨parameters, letter, heq, hparameters, hletter⟩ := h
  obtain ⟨rfl, rfl⟩ := List.cons.inj heq
  refine ⟨rfl, List.forall_mem_cons.mpr ⟨rfl, List.forall_mem_append.mpr ⟨?_, ?_⟩⟩⟩
  · intro d hd
    rw [continuesSequence, hparameters d hd, Bool.or_true, Bool.true_or]
  · intro d hd
    obtain rfl := List.mem_singleton.mp hd
    rw [continuesSequence, hletter, Bool.or_true]

theorem IsSequence.ne_nil (h : IsSequence s) : s ≠ [] := by
  obtain ⟨parameters, letter, rfl, -⟩ := h
  exact List.cons_ne_nil _ _

theorem IsSequence.exists_cons (h : IsSequence s) : ∃ more, s = escapeChar :: more := by
  obtain ⟨parameters, letter, rfl, -⟩ := h
  exact ⟨_, rfl⟩

theorem not_beginsSequence_of_ne (hc : c ≠ escapeChar) : ¬BeginsSequence (c :: t) := by
  rintro ⟨s, hs, hstart⟩
  obtain ⟨more, rfl⟩ := hs.exists_cons
  exact hc (List.cons_prefix_cons.mp hstart).1.symm

theorem BeginsSequence.mono (h : BeginsSequence t) (htu : t <+: u) : BeginsSequence u := by
  obtain ⟨s, hs, hst⟩ := h
  exact ⟨s, hs, hst.trans htu⟩

/-- A sequence at the start of a text ends before a character that none continues with. -/
theorem beginsSequence_append_cons_iff (hc : continuesSequence c = false) (d : Char)
    (front back : Text) :
    BeginsSequence (d :: front ++ c :: back) ↔ BeginsSequence (d :: front) := by
  refine ⟨?_, fun h => h.mono (List.prefix_append _ _)⟩
  rintro ⟨s, hs, hstart⟩
  refine ⟨s, hs, ?_⟩
  rcases List.prefix_or_prefix_of_prefix hstart (List.prefix_append (d :: front) _) with
    hshort | ⟨more, hlong⟩
  · exact hshort
  · cases more with
    | nil => rw [← hlong, List.append_nil]
    | cons x more =>
        rw [← hlong, List.prefix_append_right_inj, List.cons_prefix_cons] at hstart
        obtain ⟨rfl, -⟩ := hstart
        rw [← hlong, List.cons_append] at hs
        have hcontinues := hs.continues.2 x (by simp)
        rw [hc] at hcontinues
        exact absurd hcontinues Bool.false_ne_true

/-! ## What is taken for a sequence -/

theorem parametersLength?_append {parameters : Text} {letter : Char}
    (hparameters : ∀ c ∈ parameters, isParameterChar c = true)
    (hletter : isAsciiLetter letter = true) (rest : Text) :
    parametersLength? (parameters ++ letter :: rest) = some (parameters.length + 1) := by
  induction parameters with
  | nil => rw [List.nil_append, parametersLength?, if_pos hletter, List.length_nil]
  | cons c more ih =>
      obtain ⟨hc, hmore⟩ := List.forall_mem_cons.mp hparameters
      rw [List.cons_append, parametersLength?, isAsciiLetter_eq_false_of_isParameterChar hc,
        if_neg Bool.false_ne_true, if_pos hc, ih hmore, Option.map_some, List.length_cons]

theorem exists_parameters_of_parametersLength? (h : parametersLength? t = some n) :
    ∃ (parameters : Text) (letter : Char) (rest : Text), t = parameters ++ letter :: rest ∧
      (∀ c ∈ parameters, isParameterChar c = true) ∧ isAsciiLetter letter = true := by
  induction t generalizing n with
  | nil => cases h
  | cons c rest ih =>
      rw [parametersLength?] at h
      split_ifs at h with hletter hparameter
      · exact ⟨[], c, rest, rfl, by simp, hletter⟩
      · obtain ⟨m, hm, -⟩ := Option.map_eq_some_iff.mp h
        obtain ⟨parameters, letter, rest, rfl, hparameters, hletter⟩ := ih hm
        exact ⟨c :: parameters, letter, rest, rfl,
          List.forall_mem_cons.mpr ⟨hparameter, hparameters⟩, hletter⟩

theorem sequenceLength?_append (h : IsSequence (escapeChar :: s)) (rest : Text) :
    sequenceLength? (s ++ rest) = some s.length := by
  obtain ⟨parameters, letter, heq, hparameters, hletter⟩ := h
  obtain ⟨-, rfl⟩ := List.cons.inj heq
  rw [List.cons_append, sequenceLength?, List.append_assoc, List.singleton_append,
    parametersLength?_append hparameters hletter, Option.map_some, List.length_cons,
    List.length_append, List.length_singleton]

theorem sequenceLength?_eq_none (h : ¬BeginsSequence (escapeChar :: t)) :
    sequenceLength? t = none := by
  fun_cases sequenceLength? t with
  | case1 rest =>
      rw [Option.map_eq_none_iff, Option.eq_none_iff_forall_ne_some]
      intro n hn
      obtain ⟨parameters, letter, rest, rfl, hparameters, hletter⟩ :=
        exists_parameters_of_parametersLength? hn
      exact h ⟨_, ⟨parameters, letter, rfl, hparameters, hletter⟩, rest, by simp⟩
  | case2 => rfl

/-! ## Stripping -/

theorem stripFrom_length_append (front back : Text) :
    stripFrom front.length (front ++ back) = stripEscapes back := by
  induction front with
  | nil => rfl
  | cons c rest ih => rw [List.length_cons, List.cons_append, stripFrom, ih]

theorem IsSequence.stripEscapes_append (h : IsSequence s) (rest : Text) :
    stripEscapes (s ++ rest) = stripEscapes rest := by
  obtain ⟨more, rfl⟩ := h.exists_cons
  rw [List.cons_append, stripEscapes, stripFrom, if_pos rfl, sequenceLength?_append h]
  exact stripFrom_length_append more rest

theorem stripEscapes_cons (h : ¬BeginsSequence (c :: t)) :
    stripEscapes (c :: t) = c :: stripEscapes t := by
  rw [stripEscapes, stripFrom]
  split_ifs with hc
  · subst hc
    rw [sequenceLength?_eq_none h]
    rfl
  · rfl

/-- A text is empty, or it begins with a sequence, or with a character that begins none. -/
theorem stripping_induction {motive : Text → Prop} (nil : motive [])
    (sequence : ∀ s rest, IsSequence s → motive rest → motive (s ++ rest))
    (kept : ∀ c rest, ¬BeginsSequence (c :: rest) → motive rest → motive (c :: rest))
    (t : Text) : motive t := by
  induction hlength : t.length using Nat.strong_induction_on generalizing t with
  | _ n ih =>
      subst hlength
      by_cases h : BeginsSequence t
      · obtain ⟨s, hs, rest, rfl⟩ := h
        have hshorter : rest.length < (s ++ rest).length := by
          have := List.length_pos_of_ne_nil hs.ne_nil
          rw [List.length_append]
          omega
        exact sequence s rest hs (ih _ hshorter rest rfl)
      · cases t with
        | nil => exact nil
        | cons c rest => exact kept c rest h (ih _ (Nat.lt_succ_self _) rest rfl)

theorem length_stripEscapes_le (t : Text) : (stripEscapes t).length ≤ t.length := by
  induction t using stripping_induction with
  | nil => exact Nat.le_refl _
  | sequence s rest hs ih =>
      rw [hs.stripEscapes_append, List.length_append]
      omega
  | kept c rest hc ih =>
      rw [stripEscapes_cons hc]
      exact Nat.succ_le_succ ih

/-- A character that no sequence continues with keeps the stripping of what is before it
and of what is behind it apart. -/
theorem stripEscapes_append_cons (hc : continuesSequence c = false) (front back : Text) :
    stripEscapes (front ++ c :: back) = stripEscapes front ++ stripEscapes (c :: back) := by
  induction front using stripping_induction with
  | nil => rfl
  | sequence s rest hs ih =>
      rw [List.append_assoc, hs.stripEscapes_append, hs.stripEscapes_append, ih]
  | kept d rest hd ih =>
      rw [List.cons_append, stripEscapes_cons hd, List.cons_append, ← ih]
      exact stripEscapes_cons ((beginsSequence_append_cons_iff hc d rest back).not.mpr hd)

/-- Wherever a sequence stands in a text, it is stripped off, and what stands before it
and behind it is stripped on its own. -/
theorem IsSequence.stripEscapes_append_append (h : IsSequence s) (front back : Text) :
    stripEscapes (front ++ s ++ back) = stripEscapes front ++ stripEscapes back := by
  rw [List.append_assoc, ← h.stripEscapes_append back]
  obtain ⟨more, rfl⟩ := h.exists_cons
  exact stripEscapes_append_cons rfl front (more ++ back)

/-- Exactly the texts in which no sequence stands are left as they are. -/
theorem stripEscapes_eq_self_iff : stripEscapes t = t ↔ ∀ s, IsSequence s → ¬s <:+: t := by
  constructor
  · rintro hsame s hs ⟨front, back, rfl⟩
    have hlength := congrArg List.length hsame
    have hpos := List.length_pos_of_ne_nil hs.ne_nil
    have hfront := length_stripEscapes_le front
    have hback := length_stripEscapes_le back
    rw [hs.stripEscapes_append_append] at hlength
    simp only [List.length_append] at hlength
    omega
  · intro hnone
    induction t using stripping_induction with
    | nil => rfl
    | sequence s rest hs ih => exact absurd (List.prefix_append s rest).isInfix (hnone s hs)
    | kept c rest hc ih =>
        have hrest := ih fun s hs hwithin => hnone s hs (List.infix_cons hwithin)
        rw [stripEscapes_cons hc, hrest]

/-! ## Styled text -/

theorem Style.isSequence_sequence (style : Style) : IsSequence style.sequence := by
  have hcode : style.code.all isParameterChar = true := by cases style <;> rfl
  exact ⟨style.code, 'm', rfl, List.all_eq_true.mp hcode, rfl⟩

/-- A style is stripped off again, whatever the text begins and ends with. -/
theorem Style.stripEscapes_wrap (style : Style) (t : Text) :
    stripEscapes (style.wrap t) = stripEscapes t := by
  have hreset := reset.isSequence_sequence.stripEscapes_append_append t []
  rw [List.append_nil] at hreset
  rw [wrap, List.append_assoc, style.isSequence_sequence.stripEscapes_append, hreset]
  exact List.append_nil _

theorem Style.length_lt_length_wrap (style : Style) (t : Text) :
    t.length < (style.wrap t).length := by
  have hpos := List.length_pos_of_ne_nil style.isSequence_sequence.ne_nil
  simp only [wrap, List.length_append]
  omega

/-- Whatever the text, the name of the style, the terminal and the environment are, a
styled text is the text once it is stripped; and it is another text than the unstyled one
exactly if the styles are shown and the name is that of a style. -/
theorem stripEscapes_styledAs (noColor : Option Text) (isTerminal : Bool) (name t : Text) :
    let shown := styledAs (stylesEnabled noColor isTerminal) name t
    stripEscapes shown = stripEscapes t ∧
      (shown ≠ t ↔ stylesEnabled noColor isTerminal = true ∧ (Style.ofName? name).isSome) := by
  intro shown
  cases hname : Style.ofName? name with
  | none =>
      have hshown : shown = t := by simp only [shown, styledAs, hname]
      simp [hshown]
  | some style =>
      cases henabled : stylesEnabled noColor isTerminal with
      | false =>
          have hshown : shown = t := by simp [shown, styledAs, styled, hname, henabled]
          simp [hshown]
      | true =>
          have hshown : shown = style.wrap t := by
            simp [shown, styledAs, styled, hname, henabled]
          have hne : style.wrap t ≠ t := fun h =>
            absurd (congrArg List.length h) (style.length_lt_length_wrap t).ne'
          rw [hshown]
          exact ⟨style.stripEscapes_wrap t, iff_of_true hne ⟨rfl, rfl⟩⟩

end AliasConsole
