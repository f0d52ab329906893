import AliasConsole.Proofs.Completion.Listing
import AliasConsole.Proofs.Completion.LongerQuery

/-!
# Aliases that begin with the token

A query that begins a candidate, character for character, is found at its start, and
the group of the candidate is listed in the preferred bucket.  There is one exception.
Query and candidate are lower-cased apart from each other, and a final sigma of the
query has another lower case than the same sigma inside the candidate.
-/

namespace AliasConsole

/-- A query is found at the start of its extensions, unless it ends in a final sigma that
is not final in the extension. -/
theorem rank_append_iff (query more : Text) :
    (rank query (query ++ more)).position = some 0 ↔
      ¬(EndsInSigma false query ∧ startsCased more = true) := by
  rw [rank_position_eq_zero_iff]
  exact lower_isPrefix_iff

theorem groupStarts_of_append {token more : Text} {aliases : AliasGroup}
    (hmem : token ++ more ∈ aliases)
    (hfinal : ¬(EndsInSigma false token ∧ startsCased more = true)) :
    GroupStarts (Text.lower token) aliases := by
  refine ⟨token ++ more, hmem, ?_⟩
  rw [rank_position_eq_zero_iff, lower_lower]
  exact lower_isPrefix_iff.mpr hfinal

theorem Scan.isMatch_of_append {W : Type} {s : Scan W} {position command group : ℕ}
    {token more : Text} {aliases : AliasGroup} (halive : s.Alive position command)
    (hcovers : s.Covers position command) (htoken : s.tokens[position]? = some token)
    (hgroup : (s.groups position command)[group]? = some aliases)
    (hmem : token ++ more ∈ aliases)
    (hfinal : ¬(EndsInSigma false token ∧ startsCased more = true)) :
    s.IsMatch position command group .startsWith := by
  have hstarts := groupStarts_of_append hmem hfinal
  obtain ⟨spelling, hspelling, hzero⟩ := id hstarts
  have hholds : GroupHolds (Text.lower token) aliases :=
    ⟨spelling, hspelling, by rw [hzero]; exact Option.some_ne_none 0⟩
  exact ⟨halive, hcovers, token, aliases, htoken, hgroup, List.ne_nil_of_mem hmem, hholds,
    iff_of_true rfl hstarts⟩

/-- Completion lists, in the preferred bucket, every group of a living command that
covers the position and has an alias that begins with the token, unless the token ends
in a final sigma that is not final in the alias.  With that exception, and no other, a
query is found at the start of its extensions. -/
theorem autocomplete_listsBeginnings {W : Type} {r : Registry W} {options : CompletionOptions}
    (hcollect : options.collectSuggestions = true) (line : Text) (w : W) :
    (∀ query more : Text, (rank query (query ++ more)).position = some 0 ↔
        ¬(EndsInSigma false query ∧ startsCased more = true)) ∧
      ((∃ completion last, autocomplete r options line w = .ok completion last) ↔
        ∃ table worlds, (Scan.ofLine r options line table).IsSnapshot w worlds) ∧
      ∀ table worlds, (Scan.ofLine r options line table).IsSnapshot w worlds →
        ∃ completion, autocomplete r options line w =
            .ok completion (worlds (tokenize line).length 0) ∧
          ∀ position command group token more aliases,
            (tokenize line)[position]? = some token →
            (Scan.ofLine r options line table).Alive position command →
            (Scan.ofLine r options line table).Covers position command →
            (table position command)[group]? = some aliases → token ++ more ∈ aliases →
            ¬(EndsInSigma false token ∧ startsCased more = true) →
              ∃ x ∈ completion.suggestions,
                x.spot = (position, command, group) ∧ x.bucket = .startsWith := by
  refine ⟨rank_append_iff, Scan.exists_autocomplete_iff, fun table worlds hsnapshot => ?_⟩
  refine ⟨_, hsnapshot.autocomplete_eq, ?_⟩
  intro position command group token more aliases htoken halive hcovers hgroup hmem hfinal
  have hmatch := Scan.isMatch_of_append halive hcovers htoken hgroup hmem hfinal
  rw [Completion.ofNarrowings, if_pos hcollect]
  exact ((Scan.listsMatches _).isMatch_iff position command group .startsWith).mp hmatch

/-- A command with two aliases that begin alike.  The sigma is final in the beginning
and before a hyphen, but not before another letter. -/
def sigmas : List (List (List AliasGroup) × ℕ) :=
  [([[["ΑΣΑ".toList], ["ΑΣ-Α".toList]]], 1)]

theorem autocomplete_listsBeginnings_sigmas :
    CompletionOptions.full.collectSuggestions = true ∧
      ¬(EndsInSigma false "ΑΣ".toList ∧ startsCased "-Α".toList = true) ∧
      ∃ completion w', autocomplete (.ofGroups Unit sigmas) .full "ΑΣ".toList () =
          .ok completion w' ∧
        ∃ x ∈ completion.suggestions, x.spot = (0, 0, 1) ∧ x.bucket = .startsWith := by
  have hfinal : ¬(EndsInSigma false "ΑΣ".toList ∧ startsCased "-Α".toList = true) :=
    fun h => absurd h.2 (by decide +kernel)
  obtain ⟨worlds, hsnapshot⟩ := (Registry.ofGroups_shows Unit sigmas).exists_isSnapshot
    (by decide) false (tokenize "ΑΣ".toList) ()
  have hcollect : CompletionOptions.full.collectSuggestions = true := rfl
  obtain ⟨-, -, hlists⟩ := autocomplete_listsBeginnings (r := .ofGroups Unit sigmas) hcollect
    "ΑΣ".toList ()
  obtain ⟨completion, hok, hlisted⟩ := hlists (Registry.tableOf sigmas) worlds hsnapshot
  have hcovers : (Scan.ofLine (.ofGroups Unit sigmas) .full "ΑΣ".toList
      (Registry.tableOf sigmas)).Covers 0 0 := ⟨_, rfl, by decide⟩
  refine ⟨hcollect, hfinal, completion, _, hok, ?_⟩
  exact hlisted 0 0 1 "ΑΣ".toList "-Α".toList ["ΑΣ-Α".toList] (by decide +kernel)
    ((Scan.alive_zero _ 0).mpr (by decide)) hcovers rfl (by decide) hfinal

/-- A query that begins an alias can be no part of it after lower-casing, and then the
group of the alias is not listed. -/
theorem exists_beginning_not_listed :
    (rank "ΑΣ".toList ("ΑΣ".toList ++ "Α".toList)).position = none ∧
      tokenize "ΑΣ".toList = ["ΑΣ".toList] ∧
      (Registry.ofGroups Unit sigmas).WellFormed ∧
      (Registry.ofGroups Unit sigmas).Shows (Registry.tableOf sigmas) ∧
      (Scan.ofLine (.ofGroups Unit sigmas) .full "ΑΣ".toList
        (Registry.tableOf sigmas)).Alive 0 0 ∧
      (Scan.ofLine (.ofGroups Unit sigmas) .full "ΑΣ".toList
        (Registry.tableOf sigmas)).Covers 0 0 ∧
      (Registry.tableOf sigmas 0 0)[0]? = some ["ΑΣ".toList ++ "Α".toList] ∧
      ∃ completion w', autocomplete (.ofGroups Unit sigmas) .full "ΑΣ".toList () =
          .ok completion w' ∧
        ∀ x ∈ completion.suggestions, x.spot ≠ (0, 0, 0) := by
  have hformed : (Registry.ofGroups Unit sigmas).WellFormed := by decide
  have hshows := Registry.ofGroups_shows Unit sigmas
  obtain ⟨worlds, hsnapshot⟩ :=
    hshows.exists_isSnapshot hformed false (tokenize "ΑΣ".toList) ()
  refine ⟨by decide +kernel, by decide +kernel, hformed, hshows,
    (Scan.alive_zero _ 0).mpr (by decide), ⟨_, rfl, by decide⟩, rfl, _, _,
    Scan.IsSnapshot.autocomplete_eq hsnapshot, ?_⟩
  decide +kernel

end AliasConsole
