import AliasConsole.Proofs.Resolution
import AliasConsole.Proofs.Resolution.Longest
import AliasConsole.Proofs.Text.Words

/-!
# Dispatch by the first token

Most commands are called by a name: their first position is fixed to one group,
and it selects the command.  If no two commands share a name, resolving asks
only the command that the first token names.  A literal that is a word is called
by its text in the same way.
-/

namespace AliasConsole

namespace Command

variable {W : Type} {c : Command W} {first : Text} {rest : List Text} {w : W}

/-- The spellings that the first position accepts. -/
def callNames (c : Command W) : AliasGroup :=
  match c.slots with
  | .fixed [names] :: _ => names
  | _ => []

/-- The first position has one fixed group and selects the command. -/
def IsCalled (c : Command W) : Prop :=
  c.slots.head? = some (.fixed [c.callNames]) ∧ 0 < c.fixed

theorem IsCalled.groupsAt_zero (h : c.IsCalled) : c.groupsAt 0 = pure [c.callNames] :=
  groupsAt_of_getElem? (List.head?_eq_getElem?.symm.trans h.1)

theorem IsCalled.accepts_nil (h : c.IsCalled) : c.accepts [] w = .ok false w := by
  have hshort : ([] : List Text).length < c.fixed := h.2
  rw [accepts, if_pos hshort]
  rfl

theorem IsCalled.accepts_of_notMem (h : c.IsCalled) (hfirst : first ∉ c.callNames) :
    c.accepts (first :: rest) w = .ok false w := by
  obtain ⟨count, hcount⟩ := Nat.exists_eq_add_of_lt h.2
  rw [Nat.zero_add] at hcount
  rw [accepts]
  split_ifs with hlength
  · rfl
  · have hnone : ([c.callNames].any (·.contains first)) = false := by simpa using hfirst
    rw [hcount, acceptsFrom, h.groupsAt_zero, pure_bind]
    simp only [List.getElem?_cons_zero]
    rw [if_neg (by rw [hnone]; exact Bool.false_ne_true)]
    rfl

theorem IsCalled.accepts_of_mem (h : c.IsCalled) (hfixed : c.fixed = 1)
    (hfirst : first ∈ c.callNames) : c.accepts (first :: rest) w = .ok true w := by
  have hsome : ([c.callNames].any (·.contains first)) = true := by simpa using hfirst
  rw [accepts, if_neg (by rw [hfixed, List.length_cons]; omega), hfixed, acceptsFrom,
    h.groupsAt_zero, pure_bind]
  simp only [List.getElem?_cons_zero]
  rw [if_pos hsome]
  rfl

/-- A command with two fixed tokens asks its second position as well. -/
theorem IsCalled.accepts_pair (h : c.IsCalled) (hfixed : c.fixed = 2)
    (hfirst : first ∈ c.callNames) {second : Text} {groups : List AliasGroup}
    (hgroups : c.groupsAt 1 w = .ok groups w) :
    c.accepts (first :: second :: rest) w = .ok (groups.any (·.contains second)) w := by
  have hsome : ([c.callNames].any (·.contains first)) = true := by simpa using hfirst
  rw [accepts, if_neg (by rw [hfixed, List.length_cons, List.length_cons]; omega), hfixed,
    acceptsFrom, h.groupsAt_zero, pure_bind]
  simp only [List.getElem?_cons_zero]
  rw [if_pos hsome, acceptsFrom, bind_of_ok hgroups]
  simp only [List.getElem?_cons_succ, List.getElem?_cons_zero]
  cases groups.any (·.contains second) <;> rfl

/-- A command with one or two fixed tokens says whether it accepts the tokens,
if its second position can be read. -/
theorem IsCalled.exists_accepts (h : c.IsCalled)
    (hfixed : c.fixed = 1 ∨ c.fixed = 2 ∧ ∃ groups, c.groupsAt 1 w = .ok groups w)
    (tokens : List Text) : ∃ accepted, c.accepts tokens w = .ok accepted w := by
  cases tokens with
  | nil => exact ⟨false, h.accepts_nil⟩
  | cons first rest =>
      by_cases hfirst : first ∈ c.callNames
      · rcases hfixed with hone | ⟨htwo, groups, hgroups⟩
        · exact ⟨true, h.accepts_of_mem hone hfirst⟩
        · cases rest with
          | nil =>
              refine ⟨false, ?_⟩
              rw [accepts, if_pos (by rw [htwo]; exact Nat.lt_succ_self 1)]
              rfl
          | cons second more => exact ⟨_, h.accepts_pair htwo hfirst hgroups⟩
      · exact ⟨false, h.accepts_of_notMem hfirst⟩

/-- A command that accepts tokens is named by the first one, and there are as
many as it fixes. -/
theorem IsCalled.of_accepts (h : c.IsCalled) {tokens : List Text}
    (haccepts : c.accepts tokens w = .ok true w) :
    c.fixed ≤ tokens.length ∧ ∃ first ∈ c.callNames, tokens.head? = some first := by
  have hlength : c.fixed ≤ tokens.length := by
    by_contra hshort
    rw [accepts, if_pos (not_le.mp hshort)] at haccepts
    cases haccepts
  refine ⟨hlength, ?_⟩
  cases tokens with
  | nil => exact absurd h.2 (Nat.not_lt.mpr hlength)
  | cons first rest =>
      refine ⟨first, ?_, rfl⟩
      by_contra hfirst
      rw [h.accepts_of_notMem hfirst] at haccepts
      cases haccepts

end Command

/-- A word that is admitted as a literal is the first token of the line. -/
theorem Literal.head?_tokenize {W : Type} {l : Literal W} {line : Text} (hword : IsWord l.text)
    (h : l.admits line = true) : (tokenize line).head? = some l.text := by
  rw [admits, Bool.and_eq_true, List.isPrefixOf_iff_prefix] at h
  obtain ⟨⟨rest, rfl⟩, hborder⟩ := h
  rw [List.drop_left] at hborder
  have hblank : ∀ c ∈ rest.head?, isBlank c = true := by
    cases rest with
    | nil => simp
    | cons c more =>
        have hspace : c = ' ' := by simpa using hborder
        simp only [List.head?_cons, Option.mem_def, Option.some.injEq, forall_eq', hspace]
        decide
  rw [tokenize, words_append_of_isWord hword hblank, List.head?_cons]

namespace Registry

variable {W : Type} {r : Registry W} {first : Text} {rest : List Text} {w : W}

theorem resolveExactFrom_of_rejects {tokens : List Text} {commands : List (Command W)}
    (h : ∀ c ∈ commands, c.accepts tokens w = .ok false w) (index : ℕ) :
    resolveExactFrom tokens index commands w = .ok none w := by
  induction commands generalizing index with
  | nil => rfl
  | cons c rest ih =>
      rw [resolveExactFrom, bind_of_ok (h c (by simp))]
      exact ih (fun d hd => h d (List.mem_cons_of_mem c hd)) (index + 1)

/-- If all commands but one refuse the tokens, resolving finds that one exactly
if it accepts them. -/
theorem resolveExact_of_only {tokens : List Text} {index : ℕ} {c : Command W} {accepted : Bool}
    (hc : r.commands[index]? = some c) (haccepts : c.accepts tokens w = .ok accepted w)
    (hothers : ∀ other d, r.commands[other]? = some d → other ≠ index →
      d.accepts tokens w = .ok false w) :
    r.resolveExact tokens w = .ok (if accepted then some index else none) w := by
  obtain ⟨hlt, rfl⟩ := List.getElem?_eq_some_iff.mp hc
  have hfront : ∀ d ∈ r.commands.take index, d.accepts tokens w = .ok false w := by
    intro d hd
    obtain ⟨i, hi⟩ := List.mem_iff_getElem?.mp hd
    have hless : i < index := by
      have := (List.getElem?_eq_some_iff.mp hi).1
      rw [List.length_take] at this
      omega
    rw [List.getElem?_take_of_lt hless] at hi
    exact hothers i d hi (Nat.ne_of_lt hless)
  have hback : ∀ d ∈ r.commands.drop (index + 1), d.accepts tokens w = .ok false w := by
    intro d hd
    obtain ⟨i, hi⟩ := List.mem_iff_getElem?.mp hd
    rw [List.getElem?_drop] at hi
    exact hothers _ d hi (by omega)
  have hsplit : r.commands = r.commands.take index ++
      r.commands[index] :: r.commands.drop (index + 1) := by
    rw [← List.drop_eq_getElem_cons hlt, List.take_append_drop]
  rw [resolveExact_eq_ok_iff, hsplit,
    resolveExactFrom_append _ (resolveExactFrom_of_rejects hfront 0)]
  simp only [List.length_take_of_le (Nat.le_of_lt hlt), Nat.zero_add]
  rw [resolveExactFrom, bind_of_ok haccepts]
  cases accepted with
  | true => rfl
  | false => exact resolveExactFrom_of_rejects hback _

/-- Every command is called by a name, and no two by the same one. -/
structure CallsByName (r : Registry W) : Prop where
  isCalled : ∀ c ∈ r.commands, c.IsCalled
  disjoint : r.commands.Pairwise fun c d => ∀ name ∈ c.callNames, name ∉ d.callNames

namespace CallsByName

theorem resolveExact_nil (h : r.CallsByName) : r.resolveExact [] w = .ok none w :=
  resolveExact_eq_ok_iff.mpr
    (resolveExactFrom_of_rejects (fun c hc => (h.isCalled c hc).accepts_nil) 0)

theorem resolveExact_of_notMem (h : r.CallsByName)
    (hfirst : ∀ c ∈ r.commands, first ∉ c.callNames) :
    r.resolveExact (first :: rest) w = .ok none w :=
  resolveExact_eq_ok_iff.mpr (resolveExactFrom_of_rejects
    (fun c hc => (h.isCalled c hc).accepts_of_notMem (hfirst c hc)) 0)

theorem resolveExact_of_mem (h : r.CallsByName) {index : ℕ} {c : Command W}
    (hc : r.commands[index]? = some c) (hfirst : first ∈ c.callNames) {accepted : Bool}
    (haccepts : c.accepts (first :: rest) w = .ok accepted w) :
    r.resolveExact (first :: rest) w = .ok (if accepted then some index else none) w := by
  refine resolveExact_of_only hc haccepts fun other d hd hne => ?_
  refine (h.isCalled d (List.mem_of_getElem? hd)).accepts_of_notMem fun hmem => ?_
  obtain ⟨hother, rfl⟩ := List.getElem?_eq_some_iff.mp hd
  obtain ⟨hindex, rfl⟩ := List.getElem?_eq_some_iff.mp hc
  have hdisjoint := List.pairwise_iff_getElem.mp h.disjoint
  rcases Nat.lt_or_gt_of_ne hne with hlt | hgt
  · exact hdisjoint other index hother hindex hlt first hmem hfirst
  · exact hdisjoint index other hindex hother hgt first hfirst hmem

/-- If every command says whether it accepts the tokens, resolving finds none, or
one that accepts them. -/
theorem exists_resolveExact (h : r.CallsByName) (tokens : List Text)
    (htotal : ∀ c ∈ r.commands, ∃ accepted, c.accepts tokens w = .ok accepted w) :
    ∃ found, r.resolveExact tokens w = .ok found w ∧ ∀ index, found = some index →
      ∃ c, r.commands[index]? = some c ∧ c.accepts tokens w = .ok true w := by
  cases tokens with
  | nil => exact ⟨none, h.resolveExact_nil, by simp⟩
  | cons first rest =>
      by_cases hfirst : ∃ c ∈ r.commands, first ∈ c.callNames
      · obtain ⟨c, hmem, hname⟩ := hfirst
        obtain ⟨index, hc⟩ := List.mem_iff_getElem?.mp hmem
        obtain ⟨accepted, haccepts⟩ := htotal c hmem
        refine ⟨_, h.resolveExact_of_mem hc hname haccepts, ?_⟩
        cases accepted with
        | false => simp
        | true =>
            rintro index' ⟨⟩
            exact ⟨c, hc, haccepts⟩
      · push Not at hfirst
        exact ⟨none, h.resolveExact_of_notMem hfirst, by simp⟩

end CallsByName

/-- A line whose first token is none of the literals, which are words, selects
none of them. -/
theorem resolveLiteral_eq_none {line : Text} (hline : tokenize line = first :: rest)
    (h : ∀ l ∈ r.literals, IsWord l.text ∧ l.text ≠ first) : r.resolveLiteral line = none := by
  refine resolveLiteral_eq_none_iff.mpr fun l hl hadmits => ?_
  obtain ⟨hword, hne⟩ := h l hl
  have hhead := Literal.head?_tokenize hword hadmits
  rw [hline, List.head?_cons, Option.some.injEq] at hhead
  exact absurd hhead.symm hne

end Registry

end AliasConsole
