import AliasConsole.Proofs.Completion.Attempt
import Mathlib.Order.Bounds.Basic

/-!
# The longest common prefix

The selected aliases of a position agree up to case on a longest common
prefix.  Completion finds its length by comparing every alias with the first
one and keeping the least length, and it locks the token by comparing that
length with the greatest length of an alias.  This module shows that the two
numbers are what they should be, whatever has been pruned before.
-/

namespace AliasConsole

/-- The texts are equal character by character after case folding. -/
def SameUpToCase (a b : Text) : Prop :=
  a.map foldChar = b.map foldChar

/-- All texts of the list have `k` characters at least, and agree with the first
one up to case on the first `k` characters. -/
def AgreeUpTo (k : ℕ) (first : Text) (aliases : List Text) : Prop :=
  ∀ a ∈ aliases, k ≤ a.length ∧ SameUpToCase (first.take k) (a.take k)

/-- The token is what a typed token becomes if the aliases are selected: the
longest common prefix in the case of the first alias, locked if no alias is
longer; without a common prefix the typed token stays. -/
def IsCompletion (typed : Text) (token : CompletedToken) : List Text → Prop
  | [] => token = ⟨typed, false, false⟩
  | first :: rest => ∃ k, IsGreatest {k | AgreeUpTo k first (first :: rest)} k ∧
      (k = 0 → token = ⟨typed, false, false⟩) ∧
      (k ≠ 0 → token.text = first.take k ∧ token.replaced = true ∧
        (token.locked = true ↔ ∀ a ∈ first :: rest, a.length = k))

namespace Scan

variable {W : Type}

/-- The alias is the best one of a group for the token at the position. -/
def IsBestAt (s : Scan W) (position command group : ℕ) (spelling : Text) : Prop :=
  ∃ token aliases, s.tokens[position]? = some token ∧
    (s.groups position command)[group]? = some aliases ∧
    IsBest (Text.lower token) aliases spelling

/-- The best alias of a group that matches in the selected bucket. -/
def IsSelectedAlias (s : Scan W) (position command group : ℕ) (spelling : Text) : Prop :=
  (∃ bucket, s.IsSelected position bucket ∧ s.IsMatch position command group bucket) ∧
    s.IsBestAt position command group spelling

/-- The list has the command, the group and the best alias of every match in
the selected bucket, in the order of commands and then of groups. -/
structure Selects (s : Scan W) (position : ℕ) (selected : List (ℕ × ℕ × Text)) : Prop where
  ordered : selected.Pairwise fun x y => toLex (x.1, x.2.1) < toLex (y.1, y.2.1)
  mem_iff : ∀ command group spelling, (command, group, spelling) ∈ selected ↔
    s.IsSelectedAlias position command group spelling

end Scan

theorem le_commonStart_iff {a b : Text} {k : ℕ} :
    k ≤ commonStart a b ↔
      k ≤ a.length ∧ k ≤ b.length ∧ SameUpToCase (a.take k) (b.take k) := by
  induction a generalizing b k with
  | nil =>
      simp only [commonStart, List.length_nil, Nat.le_zero]
      constructor
      · rintro rfl
        simp [SameUpToCase]
      · exact And.left
  | cons c rest ih =>
      cases b with
      | nil =>
          simp only [commonStart, List.length_nil, Nat.le_zero]
          constructor
          · rintro rfl
            simp [SameUpToCase]
          · exact fun h => h.2.1
      | cons d more =>
          cases k with
          | zero => simp [SameUpToCase]
          | succ k =>
              by_cases hfold : foldChar c = foldChar d
              · simp [commonStart, sameFold, hfold, ih, SameUpToCase]
              · simp [commonStart, sameFold, hfold, SameUpToCase]

theorem le_commonLength_iff {reference : Text} {aliases : List Text} {k : ℕ} :
    k ≤ commonLength reference aliases ↔
      k ≤ reference.length ∧ ∀ a ∈ aliases, k ≤ commonStart reference a := by
  have hfold : ∀ n, k ≤ aliases.foldl (fun n a => min n (commonStart reference a)) n ↔
      k ≤ n ∧ ∀ a ∈ aliases, k ≤ commonStart reference a := by
    induction aliases with
    | nil => simp
    | cons a rest ih =>
        intro n
        rw [List.foldl_cons, ih, Nat.le_min, List.forall_mem_cons, and_assoc]
  exact hfold reference.length

theorem longestLength_le_iff {reference : Text} {aliases : List Text} {k : ℕ} :
    longestLength reference aliases ≤ k ↔
      reference.length ≤ k ∧ ∀ a ∈ aliases, a.length ≤ k := by
  have hfold : ∀ n, aliases.foldl (fun n a => max n a.length) n ≤ k ↔
      n ≤ k ∧ ∀ a ∈ aliases, a.length ≤ k := by
    induction aliases with
    | nil => simp
    | cons a rest ih =>
        intro n
        rw [List.foldl_cons, ih, Nat.max_le, List.forall_mem_cons, and_assoc]
  exact hfold reference.length

/-- The lengths on which a list of texts agrees are those up to the length that
completion computes. -/
theorem agreeUpTo_iff {first : Text} {rest : List Text} {k : ℕ} :
    AgreeUpTo k first (first :: rest) ↔ k ≤ commonLength first rest := by
  rw [le_commonLength_iff, AgreeUpTo, List.forall_mem_cons]
  simp only [le_commonStart_iff]
  constructor
  · rintro ⟨⟨hfirst, -⟩, hrest⟩
    exact ⟨hfirst, fun a ha => ⟨hfirst, hrest a ha⟩⟩
  · rintro ⟨hfirst, hrest⟩
    exact ⟨⟨hfirst, rfl⟩, fun a ha => (hrest a ha).2⟩

theorem isGreatest_commonLength (first : Text) (rest : List Text) :
    IsGreatest {k | AgreeUpTo k first (first :: rest)} (commonLength first rest) :=
  ⟨agreeUpTo_iff.mpr le_rfl, fun _ hk => agreeUpTo_iff.mp hk⟩

/-- The longest text is no longer than the common prefix exactly if all texts
have its length. -/
theorem longestLength_eq_commonLength_iff {first : Text} {rest : List Text} :
    longestLength first rest = commonLength first rest ↔
      ∀ a ∈ first :: rest, a.length = commonLength first rest := by
  have hagree : AgreeUpTo (commonLength first rest) first (first :: rest) :=
    agreeUpTo_iff.mpr le_rfl
  constructor
  · intro heq a ha
    have hle : ∀ a ∈ first :: rest, a.length ≤ commonLength first rest :=
      List.forall_mem_cons.mpr (longestLength_le_iff.mp heq.le)
    exact le_antisymm (hle a ha) (hagree a ha).1
  · intro hall
    have hlonger := longestLength_le_iff.mp (le_refl (longestLength first rest))
    apply le_antisymm
    · exact longestLength_le_iff.mpr
        ⟨(hall first (by simp)).le, fun a ha => (hall a (List.mem_cons_of_mem first ha)).le⟩
    · exact le_trans (hagree first (by simp)).1 hlonger.1

theorem isCompletion_completeToken (typed : Text) (aliases : List Text) :
    IsCompletion typed (completeToken typed aliases) aliases := by
  cases aliases with
  | nil => rfl
  | cons first rest =>
      refine ⟨commonLength first rest, isGreatest_commonLength first rest, ?_, ?_⟩
      · intro hzero
        simp [completeToken, hzero]
      · intro hpos
        simp only [completeToken, if_neg hpos, beq_iff_eq, true_and]
        exact longestLength_eq_commonLength_iff

namespace IsCompletion

variable {typed first : Text} {rest : List Text} {token : CompletedToken}

theorem of_replaced (h : IsCompletion typed token (first :: rest))
    (hreplaced : token.replaced = true) :
    ∃ k, AgreeUpTo k first (first :: rest) ∧ token.text = first.take k ∧
      (token.locked = true ↔ ∀ a ∈ first :: rest, a.length = k) := by
  obtain ⟨k, hk, hzero, hpos⟩ := h
  have hk0 : k ≠ 0 := by
    intro hk0
    rw [hzero hk0] at hreplaced
    cases hreplaced
  obtain ⟨htext, -, hlocked⟩ := hpos hk0
  exact ⟨k, hk.1, htext, hlocked⟩

theorem not_agreeUpTo_one (h : IsCompletion typed token (first :: rest))
    (hstays : token.replaced = false) : ¬AgreeUpTo 1 first (first :: rest) := by
  obtain ⟨k, hk, -, hpos⟩ := h
  intro hone
  have hk0 : k ≠ 0 := Nat.ne_of_gt (hk.2 hone)
  rw [(hpos hk0).2.1] at hstays
  cases hstays

theorem replaced_of_locked {aliases : List Text} (h : IsCompletion typed token aliases)
    (hlocked : token.locked = true) : token.replaced = true := by
  cases aliases with
  | nil =>
      rw [IsCompletion] at h
      rw [h] at hlocked
      cases hlocked
  | cons first rest =>
      obtain ⟨k, -, hzero, hpos⟩ := h
      refine (hpos fun hk0 => ?_).2.1
      rw [hzero hk0] at hlocked
      cases hlocked

end IsCompletion

/-- If a selected alias starts all others, the token becomes that alias. -/
theorem IsCompletion.text_eq_of_initial {typed : Text} {token : CompletedToken}
    {aliases : List Text} (h : IsCompletion typed token aliases) {a : Text} (ha : a ≠ [])
    (hmem : a ∈ aliases) (hinitial : ∀ b ∈ aliases, a <+: b) : token.text = a := by
  cases aliases with
  | nil => exact absurd hmem List.not_mem_nil
  | cons first rest =>
      have htake : ∀ b ∈ first :: rest, b.take a.length = a := fun b hb =>
        List.prefix_iff_eq_take.mp (hinitial b hb) |>.symm
      obtain ⟨k, hk, -, hpos⟩ := h
      have hupper : k ≤ a.length := (hk.1 a hmem).1
      have hlower : a.length ≤ k := hk.2 fun b hb =>
        ⟨(hinitial b hb).length_le, by rw [htake first (by simp), htake b hb]; rfl⟩
      obtain rfl : k = a.length := le_antisymm hupper hlower
      rw [(hpos (by simpa using ha)).1, htake first (by simp)]

namespace Scan

variable {W : Type} {s : Scan W} {position : ℕ}

/-- The selected aliases of a position, with their commands and groups. -/
def selectedAliases (s : Scan W) (position : ℕ) : List (ℕ × ℕ × Text) :=
  (s.narrowingAt position).selected.map fun m => (m.command, m.group, m.best)

theorem selects_selectedAliases (hposition : position < s.tokens.length) :
    s.Selects position (s.selectedAliases position) := by
  have htoken := List.getElem?_eq_getElem hposition
  constructor
  · rw [selectedAliases, List.pairwise_map]
    exact (s.pairwise_found_narrowingAt position).sublist (Narrowing.selected_sublist _)
  · intro command group spelling
    simp only [selectedAliases, List.mem_map, mem_selected_narrowingAt_iff hposition,
      Prod.mk.injEq]
    constructor
    · rintro ⟨m, ⟨hm, hselected⟩, rfl, rfl, rfl⟩
      obtain ⟨aliases, hgroup, hstands⟩ := standsFor_of_mem_found htoken hm
      exact ⟨⟨m.bucket, hselected, (isMatch_iff hposition).mpr ⟨m, hm, rfl, rfl, rfl⟩⟩,
        _, aliases, htoken, hgroup, hstands.isBest⟩
    · rintro ⟨⟨bucket, hselected, hmatch⟩, token, aliases, htoken', hgroup, hbest⟩
      obtain ⟨m, hm, rfl, rfl, rfl⟩ := (isMatch_iff hposition).mp hmatch
      obtain ⟨aliases', hgroup', hstands⟩ := standsFor_of_mem_found htoken' hm
      obtain rfl : aliases = aliases' := Option.some.inj (hgroup.symm.trans hgroup')
      exact ⟨m, ⟨hm, hselected⟩, rfl, rfl, hstands.isBest.firstLeast.unique hbest.firstLeast⟩

theorem mem_selectedAliases_iff (hposition : position < s.tokens.length)
    {spelling : Text} :
    spelling ∈ (s.selectedAliases position).map (fun x => x.2.2) ↔
      ∃ command group, s.IsSelectedAlias position command group spelling := by
  have hselects := selects_selectedAliases hposition
  rw [List.mem_map]
  constructor
  · rintro ⟨⟨command, group, a⟩, hmem, rfl⟩
    exact ⟨command, group, (hselects.mem_iff command group a).mp hmem⟩
  · rintro ⟨command, group, hselected⟩
    exact ⟨⟨command, group, spelling⟩, (hselects.mem_iff _ _ _).mpr hselected, rfl⟩

theorem IsMatch.exists_isSelectedAlias {command group : ℕ} {bucket : Bucket}
    (h : s.IsMatch position command group bucket) (hselected : s.IsSelected position bucket) :
    ∃ spelling, s.IsSelectedAlias position command group spelling := by
  obtain ⟨-, -, token, aliases, htoken, hgroup, -, hholds, -⟩ := id h
  obtain ⟨spelling, hbest⟩ := hholds.exists_isBest
  exact ⟨spelling, ⟨bucket, hselected, h⟩, token, aliases, htoken, hgroup, hbest⟩

theorem SeesOnly.selectedAlias {P : Text → Prop} (h : s.SeesOnly P) {command group : ℕ}
    {spelling : Text} (hselected : s.IsSelectedAlias position command group spelling) :
    P spelling := by
  obtain ⟨⟨bucket, -, hmatch⟩, token, aliases, htoken, hgroup, hbest⟩ := hselected
  exact h position (List.getElem?_eq_some_iff.mp htoken).1 command hmatch.1 hmatch.2.1
    aliases (List.mem_of_getElem? hgroup) spelling hbest.firstLeast.mem

/-- Once the preferred bucket is selected, the token is found at the start of the
selected aliases. -/
theorem IsSelectedAlias.position_eq_zero {command group : ℕ} {token spelling : Text}
    (h : s.IsSelectedAlias position command group spelling)
    (hselected : s.IsSelected position .startsWith)
    (htoken : s.tokens[position]? = some token) :
    (rank (Text.lower token) spelling).position = some 0 := by
  obtain ⟨⟨bucket, hbucket, hmatch⟩, token', aliases, htoken', hgroup, hbest⟩ := h
  obtain rfl : token = token' := Option.some.inj (htoken.symm.trans htoken')
  have hpreferred : bucket = .startsWith := by
    cases bucket with
    | startsWith => rfl
    | contains => exact absurd hselected hbucket
  obtain ⟨-, -, token', aliases', htoken', hgroup', -, -, hiff⟩ := hmatch
  obtain rfl : token = token' := Option.some.inj (htoken.symm.trans htoken')
  obtain rfl : aliases = aliases' := Option.some.inj (hgroup.symm.trans hgroup')
  exact hbest.position_eq_zero (hiff.mp hpreferred)

theorem map_selectedAliases (s : Scan W) (position : ℕ) :
    (s.selectedAliases position).map (fun x => x.2.2) =
      (s.narrowingAt position).selected.map Match.best := by
  rw [selectedAliases, List.map_map]
  rfl

theorem isCompletion_completed {typed : Text} (htyped : s.tokens[position]? = some typed) :
    IsCompletion typed (s.narrowingAt position).completed
      ((s.selectedAliases position).map fun x => x.2.2) := by
  rw [map_selectedAliases, Narrowing.completed, token_narrowingAt htyped]
  exact isCompletion_completeToken _ _

end Scan

/-- Every token becomes the longest common prefix of the aliases selected at
its position, among the groups that the call sees. -/
theorem autocomplete_isCompletion {W : Type} {r : Registry W} (hfail : r.NeverFails)
    (hformed : r.WellFormed) (options : CompletionOptions) (line : Text) (w : W) :
    (∃ table worlds, (Scan.ofLine r options line table).IsSnapshot w worlds) ∧
      ∀ table worlds, (Scan.ofLine r options line table).IsSnapshot w worlds →
        ∃ completion, autocomplete r options line w =
            .ok completion (worlds (tokenize line).length 0) ∧
          completion.tokens.length = (tokenize line).length ∧
          ∀ position typed, (tokenize line)[position]? = some typed →
            ∃ selected token, (Scan.ofLine r options line table).Selects position selected ∧
              completion.tokens[position]? = some token ∧
              IsCompletion typed token (selected.map fun x => x.2.2) := by
  refine ⟨Registry.exists_isSnapshot hfail hformed _ _ w, ?_⟩
  intro table worlds hsnapshot
  refine ⟨_, hsnapshot.autocomplete_eq, by simp [Completion.ofNarrowings, Scan.narrowings], ?_⟩
  intro position typed htyped
  have hlt : position < (tokenize line).length := (List.getElem?_eq_some_iff.mp htyped).1
  refine ⟨_, _, Scan.selects_selectedAliases hlt, ?_, Scan.isCompletion_completed htyped⟩
  rw [Completion.ofNarrowings, List.getElem?_map, Scan.getElem?_narrowings.mpr ⟨hlt, rfl⟩]
  rfl

theorem autocomplete_isCompletion_counting :
    Registry.counting.NeverFails ∧ Registry.counting.WellFormed ∧
      (∃ table worlds, (Scan.ofLine Registry.counting .full "AB o".toList table).IsSnapshot
        3 worlds) ∧
      ∀ table worlds,
        (Scan.ofLine Registry.counting .full "AB o".toList table).IsSnapshot 3 worlds →
        ∃ completion, autocomplete Registry.counting .full "AB o".toList 3 =
            .ok completion (worlds (tokenize "AB o".toList).length 0) ∧
          completion.tokens.length = (tokenize "AB o".toList).length ∧
          ∀ position typed, (tokenize "AB o".toList)[position]? = some typed →
            ∃ selected token,
              (Scan.ofLine Registry.counting .full "AB o".toList table).Selects position
                selected ∧
              completion.tokens[position]? = some token ∧
              IsCompletion typed token (selected.map fun x => x.2.2) := by
  have hformed : Registry.counting.WellFormed := by decide
  exact ⟨Registry.counting_neverFails, hformed,
    autocomplete_isCompletion Registry.counting_neverFails hformed .full "AB o".toList 3⟩

end AliasConsole
