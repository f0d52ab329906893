import AliasConsole.Proofs.Escape.Stripping

/-!
# Torn sequences

Stripping removes every sequence that stands in a text, but it does not look at the text
again.  A sequence may be torn, with other sequences between its characters: it does not
stand in the text, and it does once the others are gone.  This is the only way in which
stripping leaves a sequence behind, and the only way in which a second stripping finds
anything to do.
-/

namespace AliasConsole

/-- The second text is the first one with sequences put in anywhere. -/
inductive Woven : Text → Text → Prop
  | nil : Woven [] []
  | char (c : Char) {s t : Text} (h : Woven s t) : Woven (c :: s) (c :: t)
  | sequence {q s t : Text} (hq : IsSequence q) (h : Woven s t) : Woven s (q ++ t)

/-- A sequence with at least one other sequence between its characters. -/
def IsTorn (t : Text) : Prop :=
  ∃ (parameters inner : Text) (letter : Char), t = escapeChar :: (inner ++ [letter]) ∧
    (∀ c ∈ parameters, isParameterChar c = true) ∧ isAsciiLetter letter = true ∧
      Woven ('[' :: parameters) inner ∧ inner ≠ '[' :: parameters

variable {s t front back : Text} {c : Char}

theorem woven_stripEscapes (t : Text) : Woven (stripEscapes t) t := by
  induction t using stripping_induction with
  | nil => exact .nil
  | sequence s rest hs ih =>
      rw [hs.stripEscapes_append]
      exact .sequence hs ih
  | kept c rest hc ih =>
      rw [stripEscapes_cons hc]
      exact .char c ih

/-- What is put in is stripped off again, if the rest has nothing that could begin a
sequence. -/
theorem Woven.stripEscapes_append (h : Woven s t) (hs : escapeChar ∉ s) (rest : Text) :
    stripEscapes (t ++ rest) = s ++ stripEscapes rest := by
  induction h with
  | nil => rfl
  | char c h ih =>
      obtain ⟨hc, hmore⟩ := not_or.mp (List.mem_cons.not.mp hs)
      rw [List.cons_append, stripEscapes_cons (not_beginsSequence_of_ne (Ne.symm hc)), ih hmore,
        List.cons_append]
  | sequence hq h ih => rw [List.append_assoc, hq.stripEscapes_append, ih hs]

/-- Where something is put in, an escape character stands, so that what comes before the
first escape character belongs to the text that it is put in. -/
theorem Woven.isPrefix_of_notMem (h : Woven s t) (hne : t ≠ s) {p rest : Text}
    (hp : escapeChar ∉ p) (hstart : p <+: t ++ rest) : p <+: s := by
  induction h generalizing p with
  | nil => exact absurd rfl hne
  | char c h ih =>
      cases p with
      | nil => exact List.nil_prefix
      | cons d more =>
          obtain ⟨rfl, hmore⟩ := List.cons_prefix_cons.mp hstart
          have hrest := ih (fun heq => hne (congrArg _ heq)) (List.not_mem_of_not_mem_cons hp) hmore
          exact List.cons_prefix_cons.mpr ⟨rfl, hrest⟩
  | sequence hq h ih =>
      cases p with
      | nil => exact List.nil_prefix
      | cons d more =>
          obtain ⟨tail, rfl⟩ := hq.exists_cons
          obtain ⟨rfl, -⟩ := List.cons_prefix_cons.mp hstart
          exact absurd List.mem_cons_self hp

theorem IsSequence.notMem_tail (h : IsSequence (c :: s)) : escapeChar ∉ s := by
  intro hmem
  have hcontinues := h.continues.2 escapeChar hmem
  exact absurd hcontinues (by decide)

theorem not_beginsSequence_of_woven {parameters inner : Text}
    (hparameters : ∀ c ∈ parameters, isParameterChar c = true)
    (hwoven : Woven ('[' :: parameters) inner) (hne : inner ≠ '[' :: parameters) (rest : Text) :
    ¬BeginsSequence (escapeChar :: (inner ++ rest)) := by
  rintro ⟨s, hs, hstart⟩
  obtain ⟨own, letter, rfl, -, hletter⟩ := id hs
  have hbefore := hwoven.isPrefix_of_notMem hne hs.notMem_tail (List.cons_prefix_cons.mp hstart).2
  have hmem : letter ∈ '[' :: parameters := hbefore.subset (by simp)
  rcases List.mem_cons.mp hmem with rfl | hmem
  · exact absurd hletter (by decide)
  · rw [isAsciiLetter_eq_false_of_isParameterChar (hparameters letter hmem)] at hletter
    exact Bool.false_ne_true hletter

/-- A character that is left by stripping comes from one of the text, with what is left
before it from before it and what is left behind it from behind it. -/
theorem exists_of_stripEscapes_eq (h : stripEscapes t = front ++ c :: back) :
    ∃ before after, t = before ++ c :: after ∧ stripEscapes before = front ∧
      stripEscapes after = back ∧ ¬BeginsSequence (c :: after) := by
  induction t using stripping_induction generalizing front with
  | nil => exact absurd h.symm (by simp [stripEscapes, stripFrom])
  | sequence s rest hs ih =>
      rw [hs.stripEscapes_append] at h
      obtain ⟨before, after, rfl, hbefore, hafter⟩ := ih h
      refine ⟨s ++ before, after, by rw [List.append_assoc], ?_, hafter⟩
      rw [hs.stripEscapes_append, hbefore]
  | kept d rest hd ih =>
      rw [stripEscapes_cons hd] at h
      cases front with
      | nil =>
          obtain ⟨rfl, hback⟩ := List.cons.inj h
          exact ⟨[], rest, rfl, rfl, hback, hd⟩
      | cons e more =>
          obtain ⟨rfl, hmore⟩ := List.cons.inj h
          obtain ⟨before, after, rfl, hbefore, hafter⟩ := ih hmore
          have hkept : ¬BeginsSequence (d :: before) :=
            fun hbegins => hd (hbegins.mono (List.prefix_append (d :: before) (c :: after)))
          refine ⟨d :: before, after, rfl, ?_, hafter⟩
          rw [stripEscapes_cons hkept, hbefore]

theorem exists_isTorn_of_infix (hs : IsSequence s) (hwithin : s <:+: stripEscapes t) :
    ∃ u, IsTorn u ∧ u <:+: t := by
  obtain ⟨parameters, letter, rfl, hparameters, hletter⟩ := hs
  obtain ⟨x, y, hleft⟩ := hwithin
  have hescape : stripEscapes t = x ++ escapeChar :: ('[' :: parameters ++ letter :: y) := by
    rw [← hleft]
    simp
  obtain ⟨before, behind, rfl, -, hbehind, hbegins⟩ := exists_of_stripEscapes_eq hescape
  obtain ⟨inner, after, rfl, hinner, -, -⟩ := exists_of_stripEscapes_eq hbehind
  have hwoven := woven_stripEscapes inner
  rw [hinner] at hwoven
  refine ⟨escapeChar :: (inner ++ [letter]),
    ⟨parameters, inner, letter, rfl, hparameters, hletter, hwoven, ?_⟩, before, after, by simp⟩
  rintro rfl
  exact hbegins ⟨_, ⟨parameters, letter, rfl, hparameters, hletter⟩, after, by simp⟩

theorem IsTorn.exists_infix (h : IsTorn s) (hwithin : s <:+: t) :
    ∃ q, IsSequence q ∧ q <:+: stripEscapes t := by
  obtain ⟨parameters, inner, letter, rfl, hparameters, hletter, hwoven, hne⟩ := h
  obtain ⟨x, y, rfl⟩ := hwithin
  have hq : IsSequence (escapeChar :: '[' :: (parameters ++ [letter])) :=
    ⟨parameters, letter, rfl, hparameters, hletter⟩
  have hfree : escapeChar ∉ '[' :: (parameters ++ [letter]) := hq.notMem_tail
  have hparametersFree : escapeChar ∉ '[' :: parameters :=
    fun hmem => hfree (List.mem_append_left [letter] hmem)
  have hletterNe : letter ≠ escapeChar := by
    rintro rfl
    exact hfree (by simp)
  have hstripped : stripEscapes (x ++ escapeChar :: (inner ++ letter :: y)) =
      stripEscapes x ++ escapeChar :: ('[' :: parameters ++ letter :: stripEscapes y) := by
    rw [stripEscapes_append_cons rfl,
      stripEscapes_cons (not_beginsSequence_of_woven hparameters hwoven hne _),
      hwoven.stripEscapes_append hparametersFree,
      stripEscapes_cons (not_beginsSequence_of_ne hletterNe)]
  refine ⟨_, hq, stripEscapes x, stripEscapes y, ?_⟩
  have htext : x ++ escapeChar :: (inner ++ [letter]) ++ y =
      x ++ escapeChar :: (inner ++ letter :: y) := by simp
  rw [htext, hstripped]
  simp

/-- A sequence is left by stripping exactly if the text has a torn one. -/
theorem exists_infix_stripEscapes_iff :
    (∃ s, IsSequence s ∧ s <:+: stripEscapes t) ↔ ∃ u, IsTorn u ∧ u <:+: t := by
  constructor
  · rintro ⟨s, hs, hwithin⟩
    exact exists_isTorn_of_infix hs hwithin
  · rintro ⟨u, hu, hwithin⟩
    exact hu.exists_infix hwithin

/-- Stripping removes every sequence that stands in a text, whole, and strips what stands
before it and behind it on its own; a text without sequences is left as it is.  What is
left has a sequence, and is changed by a second stripping, exactly if a torn sequence
stands in the text. -/
theorem stripEscapes_leaves (t : Text) :
    (∀ front s back, IsSequence s → t = front ++ s ++ back →
        stripEscapes t = stripEscapes front ++ stripEscapes back) ∧
      (stripEscapes t = t ↔ ∀ s, IsSequence s → ¬s <:+: t) ∧
      ((∃ s, IsSequence s ∧ s <:+: stripEscapes t) ↔ ∃ u, IsTorn u ∧ u <:+: t) ∧
      (stripEscapes (stripEscapes t) ≠ stripEscapes t ↔ ∃ u, IsTorn u ∧ u <:+: t) := by
  refine ⟨?_, stripEscapes_eq_self_iff, exists_infix_stripEscapes_iff, ?_⟩
  · rintro front s back hs rfl
    exact hs.stripEscapes_append_append front back
  · rw [← exists_infix_stripEscapes_iff, Ne, stripEscapes_eq_self_iff]
    simp only [not_forall, not_not, exists_prop]

/-- The reset, torn by another reset behind its bracket. -/
def tornReset : Text := escapeChar :: '[' :: (Style.reset.sequence ++ ['0', 'm'])

theorem stripEscapes_leaves_tornReset :
    IsSequence Style.reset.sequence ∧
      tornReset = [escapeChar, '['] ++ Style.reset.sequence ++ ['0', 'm'] ∧
      stripEscapes tornReset = stripEscapes [escapeChar, '['] ++ stripEscapes ['0', 'm'] := by
  have hreset := Style.reset.isSequence_sequence
  obtain ⟨hremoves, -⟩ := stripEscapes_leaves tornReset
  exact ⟨hreset, rfl, hremoves [escapeChar, '['] Style.reset.sequence ['0', 'm'] hreset rfl⟩

/-- What stripping leaves of the torn reset is a reset, which a second stripping removes. -/
theorem exists_sequence_left :
    stripEscapes tornReset = Style.reset.sequence ∧
      ¬(∀ s, IsSequence s → ¬s <:+: stripEscapes tornReset) ∧
      stripEscapes (stripEscapes tornReset) ≠ stripEscapes tornReset := by
  have hleft : stripEscapes tornReset = Style.reset.sequence := rfl
  refine ⟨hleft, fun hnone => ?_, by decide⟩
  exact hnone _ Style.reset.isSequence_sequence (by rw [hleft])

end AliasConsole
