import AliasConsole.Proofs.Completion.Reassembly

/-!
# Resolving a locked line

A locked token is the whole of the first selected alias, and all selected
aliases are the same word up to case.  So the fixed tokens of a command that
survives a locked line are aliases of the command up to case.  Resolution does
not compare up to case: the command accepts the completed line if it also
offers the spellings that the line has, and without that the line may resolve
to nothing.
-/

namespace AliasConsole

/-- The command offers an alias at the position that is the text up to case. -/
def OffersUpToCase (table : GroupTable) (position command : ℕ) (t : Text) : Prop :=
  ∃ spelling, Offers table position command spelling ∧ SameUpToCase t spelling

/-- A locked token is the same word up to case as every selected alias. -/
theorem IsCompletion.sameUpToCase_of_locked {typed : Text} {token : CompletedToken}
    {aliases : List Text} (h : IsCompletion typed token aliases)
    (hlocked : token.locked = true) {a : Text} (ha : a ∈ aliases) :
    SameUpToCase token.text a := by
  cases aliases with
  | nil => exact absurd ha List.not_mem_nil
  | cons first rest =>
      obtain ⟨k, hagree, htext, hlengths⟩ := h.of_replaced (h.replaced_of_locked hlocked)
      have hlength : a.length = k := hlengths.mp hlocked a ha
      have hsame : SameUpToCase (first.take k) (a.take k) := (hagree a ha).2
      rwa [htext, ← List.take_of_length_le hlength.le]

namespace Scan

variable {W : Type} {s : Scan W} {position command : ℕ}

theorem IsSelectedAlias.offers {group : ℕ} {spelling : Text}
    (h : s.IsSelectedAlias position command group spelling) :
    Offers s.groups position command spelling := by
  obtain ⟨-, token, aliases, -, hgroup, hbest⟩ := h
  exact ⟨aliases, List.mem_of_getElem? hgroup, hbest.firstLeast.mem⟩

/-- If a command survives a position where the token is locked, it offers the
completed token up to case. -/
theorem Alive.offersUpToCase (h : s.Alive (position + 1) command)
    (hlocked : (s.narrowingAt position).completed.locked = true) :
    OffersUpToCase s.groups position command (s.narrowingAt position).completed.text := by
  obtain ⟨bucket, group, hselected, hmatch⟩ := (s.alive_succ position command).mp h
  have hposition := hmatch.position_lt
  obtain ⟨spelling, hspelling⟩ := hmatch.exists_isSelectedAlias hselected
  have hmem := (mem_selectedAliases_iff hposition).mpr ⟨command, group, hspelling⟩
  have hcompletion := isCompletion_completed (List.getElem?_eq_getElem hposition)
  exact ⟨spelling, hspelling.offers, hcompletion.sameUpToCase_of_locked hlocked hmem⟩

end Scan

/-- If a line is completed to locked tokens, the commands that survive it offer
the completed tokens at their fixed positions up to case; one that also offers
them as they are is what the completed line resolves to, if not a command in
front of it. -/
theorem exists_resolveExact_le_of_locked {W : Type} {r : Registry W} {table : GroupTable}
    (hformed : r.WellFormed) (hshows : r.Shows table) (hblank : r.AliasesSatisfy BlankFree)
    {options : CompletionOptions} (hreplace : options.replaceLine = true) {line : Text}
    {index : ℕ} {c : Command W} (hc : r.commands[index]? = some c)
    (hfixed : c.fixed ≤ (tokenize line).length)
    (halive : (Scan.ofLine r options line table).Alive (tokenize line).length index) (w : W) :
    ∃ completion w', autocomplete r options line w = .ok completion w' ∧
      ((∀ token ∈ completion.tokens, token.locked = true) →
        (∀ position < c.fixed, ∃ token, completion.tokens[position]? = some token ∧
          OffersUpToCase table position index token.text) ∧
        ((∀ position < c.fixed, ∀ token, completion.tokens[position]? = some token →
            OffersUpToCase table position index token.text →
              Offers table position index token.text) →
          ∃ j ≤ index, AlwaysGives (r.resolveExact (tokenize completion.line)) (some j))) := by
  obtain ⟨worlds, hsnapshot⟩ :=
    hshows.exists_isSnapshot hformed options.limitToFixed (tokenize line) w
  refine ⟨_, _, Scan.IsSnapshot.autocomplete_eq hsnapshot, fun hlocked => ?_⟩
  have htoken : ∀ position < c.fixed,
      (Completion.ofNarrowings options line
        (Scan.ofLine r options line table).narrowings).tokens[position]? =
        some ((Scan.ofLine r options line table).narrowingAt position).completed := by
    intro position hposition
    rw [Completion.ofNarrowings, List.getElem?_map,
      Scan.getElem?_narrowings.mpr ⟨lt_of_lt_of_le hposition hfixed, rfl⟩]
    rfl
  have hcase : ∀ position < c.fixed, OffersUpToCase table position index
      ((Scan.ofLine r options line table).narrowingAt position).completed.text := by
    intro position hposition
    have hnext := halive.of_le (Nat.succ_le_of_lt (lt_of_lt_of_le hposition hfixed))
    exact hnext.offersUpToCase (hlocked _ (List.mem_of_getElem? (htoken position hposition)))
  refine ⟨fun position hposition => ⟨_, htoken position hposition, hcase position hposition⟩, ?_⟩
  intro hspelled
  apply Registry.Accepts.exists_resolveExact_le hshows hformed
  refine Scan.IsSnapshot.accepts_completed hsnapshot hformed hblank hreplace hc hfixed ?_
  intro position hposition
  exact hspelled position hposition _ (htoken position hposition) (hcase position hposition)

/-- The second command offers the spelling of the first one besides its own. -/
def twoSpellings : List (List (List AliasGroup) × ℕ) :=
  [([[["Go".toList]], [["alpha".toList]]], 2),
    ([[["go".toList, "Go".toList]], [["beta".toList]]], 2)]

theorem exists_resolveExact_le_of_locked_twoSpellings :
    ∃ completion w',
      autocomplete (.ofGroups Unit twoSpellings) .full "GO b".toList () = .ok completion w' ∧
      (∀ token ∈ completion.tokens, token.locked = true) ∧
      ∃ j ≤ 1, AlwaysGives ((Registry.ofGroups Unit twoSpellings).resolveExact
        (tokenize completion.line)) (some j) := by
  have hformed : (Registry.ofGroups Unit twoSpellings).WellFormed := by decide
  have hshows := Registry.ofGroups_shows Unit twoSpellings
  have hblank : (Registry.ofGroups Unit twoSpellings).AliasesSatisfy BlankFree :=
    Registry.ofGroups_aliasesSatisfy Unit (by decide)
  have halive : (Scan.ofLine (.ofGroups Unit twoSpellings) .full "GO b".toList
      (Registry.tableOf twoSpellings)).Alive 2 1 :=
    (Scan.alive_iff_mem_survivors (by decide)).mpr (by decide)
  obtain ⟨completion, w', hok, hresolves⟩ :=
    exists_resolveExact_le_of_locked hformed hshows hblank rfl rfl (by decide) halive ()
  obtain ⟨worlds, hsnapshot⟩ := hshows.exists_isSnapshot hformed false (tokenize "GO b".toList) ()
  have hcompletion := (EStateM.Result.ok.inj
    (hok.symm.trans (Scan.IsSnapshot.autocomplete_eq hsnapshot))).1
  have hlocked : ∀ token ∈ completion.tokens, token.locked = true := by
    rw [hcompletion]
    decide
  have hspelled : ∀ position < 2, Offers (Registry.tableOf twoSpellings) position 1
      ((completion.tokens[position]?.map CompletedToken.text).getD []) := by
    rw [hcompletion]
    decide
  refine ⟨completion, w', hok, hlocked, (hresolves hlocked).2 ?_⟩
  intro position hposition token htoken _
  simpa [htoken] using hspelled position hposition

/-- The second command offers the spelling of the first one in another case. -/
def recased : List (List (List AliasGroup) × ℕ) :=
  [([[["Go".toList]], [["alpha".toList]]], 2), ([[["go".toList]], [["beta".toList]]], 2)]

/-- A line can be completed to locked tokens and resolve to nothing, although a
command survives it. -/
theorem not_resolves_of_locked :
    (Registry.ofGroups Unit recased).WellFormed ∧ (Registry.ofGroups Unit recased).Steady ∧
      (Registry.ofGroups Unit recased).Shows (Registry.tableOf recased) ∧
      (Registry.ofGroups Unit recased).AliasesSatisfy BlankFree ∧
      (tokenize "go beta".toList).length = 2 ∧
      (∃ c, (Registry.ofGroups Unit recased).commands[1]? = some c ∧ c.fixed ≤ 2) ∧
      (Scan.ofLine (.ofGroups Unit recased) .full "go beta".toList
        (Registry.tableOf recased)).Alive 2 1 ∧
      ∃ completion w',
        autocomplete (.ofGroups Unit recased) .full "go beta".toList () = .ok completion w' ∧
        (∀ token ∈ completion.tokens, token.locked = true) ∧
        (Registry.ofGroups Unit recased).resolveExact (tokenize completion.line) () =
          .ok none () ∧
        ¬∃ j ≤ 1, ∃ w'', (Registry.ofGroups Unit recased).resolveExact
          (tokenize completion.line) () = .ok (some j) w'' := by
  have hformed : (Registry.ofGroups Unit recased).WellFormed := by decide
  have hshows := Registry.ofGroups_shows Unit recased
  have hblank : (Registry.ofGroups Unit recased).AliasesSatisfy BlankFree :=
    Registry.ofGroups_aliasesSatisfy Unit (by decide)
  have halive : (Scan.ofLine (.ofGroups Unit recased) .full "go beta".toList
      (Registry.tableOf recased)).Alive 2 1 :=
    (Scan.alive_iff_mem_survivors (by decide)).mpr (by decide)
  obtain ⟨worlds, hsnapshot⟩ :=
    hshows.exists_isSnapshot hformed false (tokenize "go beta".toList) ()
  have hnone : (Registry.ofGroups Unit recased).resolveExact
      (tokenize (Completion.ofNarrowings .full "go beta".toList
        (Scan.ofLine (.ofGroups Unit recased) .full "go beta".toList
          (Registry.tableOf recased)).narrowings).line) () = .ok none () := by
    rfl
  refine ⟨hformed, hshows.steady, hshows, hblank, rfl, ⟨_, rfl, le_rfl⟩, halive, _, _,
    Scan.IsSnapshot.autocomplete_eq hsnapshot, by decide, hnone, ?_⟩
  rintro ⟨j, -, w'', hsome⟩
  rw [hnone] at hsome
  cases hsome

end AliasConsole
