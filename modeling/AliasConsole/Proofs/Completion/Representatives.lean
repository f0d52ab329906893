import AliasConsole.Proofs.Completion.Listing
import AliasConsole.Proofs.Text.Occurrence

/-!
# The aliases that stand for groups

A suggestion shows one alias for its group, the first one of least rank, and the rank of
that alias.  Ranks of aliases that hold the query and of aliases that do not are compared
with each other, and only the latter can have a negative surplus: an alias that holds the
query is longer than the query at least by what stands before it.  So an alias without
the query is never shown and never takes the place of one that holds it.
-/

namespace AliasConsole

/-! ## Ranks as pairs of integers -/

/-- The rank with an integer for a missing position, in lexicographic order. -/
def Rank.pair (missing : ℤ) (r : Rank) : ℤ ×ₗ ℤ :=
  toLex (r.position.elim missing Nat.cast, r.surplus)

theorem position_le_surplus {query candidate : Text} {position : ℕ}
    (h : (rank query candidate).position = some position) :
    (position : ℤ) ≤ (rank query candidate).surplus := by
  have hlength := position_add_length_le h
  change (position : ℤ) ≤ (Text.lower candidate).length - (Text.lower query).length
  omega

/-- A number beyond all positions comes last, as a missing position does. -/
theorem Rank.pair_lt_pair_iff {r s : Rank} {missing : ℤ}
    (hr : ∀ p, r.position = some p → (p : ℤ) < missing)
    (hs : ∀ p, s.position = some p → (p : ℤ) < missing) :
    r.pair missing < s.pair missing ↔ r.key < s.key := by
  rw [pair, pair, key, key, Prod.Lex.toLex_lt_toLex, Prod.Lex.toLex_lt_toLex]
  cases hposition : r.position with
  | none =>
      cases hother : s.position with
      | none => simp
      | some q =>
          have hbelow := hs q hother
          simp only [Option.elim, not_top_lt, WithTop.top_ne_coe, false_and, or_false,
            iff_false, not_or, not_lt, not_and]
          omega
  | some p =>
      cases hother : s.position with
      | none => exact iff_of_true (Or.inl (hr p hposition)) (Or.inl (WithTop.coe_lt_top p))
      | some q =>
          simp only [Option.elim, Int.ofNat_lt, Int.natCast_inj, WithTop.coe_lt_coe,
            WithTop.coe_inj]

theorem IsFirstLeast.of_key_lt_iff {α κ κ' : Type*} [LinearOrder κ] [LinearOrder κ']
    {key : α → κ} {key' : α → κ'} {items : List α} {x : α} (h : IsFirstLeast key items x)
    (hkeys : ∀ a ∈ items, ∀ b ∈ items, key' a < key' b ↔ key a < key b) :
    IsFirstLeast key' items x := by
  have hx := h.mem
  obtain ⟨before, after, rfl, hbefore, hafter⟩ := h
  refine ⟨before, after, rfl, fun y hy => ?_, fun y hy => ?_⟩
  · exact (hkeys x hx y (by simp [hy])).mpr (hbefore y hy)
  · rw [← not_lt, hkeys y (by simp [hy]) x hx, not_lt]
    exact hafter y hy

/-! ## Suggestions and their groups -/

/-- The suggestion shows the first alias of least rank, and carries its rank: the first
place of the query and the difference of lengths, in lower case.  A missing query counts
as any number that is greater than the lengths of all aliases. -/
structure Suggestion.Represents (x : Suggestion) (query : Text) (aliases : AliasGroup) :
    Prop where
  aliases_eq : x.found.aliases = aliases
  firstLeast : ∀ missing : ℤ, (∀ a ∈ aliases, ((Text.lower a).length : ℤ) < missing) →
    IsFirstLeast (fun a => (rank query a).pair missing) aliases x.found.best
  rank_eq : rank query x.found.best = ⟨some x.found.position, x.found.surplus⟩
  occurs : Text.lower query <+: (Text.lower x.found.best).drop x.found.position
  not_before : ∀ i < x.found.position, ¬Text.lower query <+: (Text.lower x.found.best).drop i
  surplus_eq : x.found.surplus =
    ((Text.lower x.found.best).length : ℤ) - (Text.lower query).length
  position_le : (x.found.position : ℤ) ≤ x.found.surplus
  bucket_iff : x.bucket = .startsWith ↔ x.found.position = 0

theorem Match.StandsFor.represents {m : Match} {query : Text} {command group : ℕ}
    {aliases : AliasGroup} (h : m.StandsFor query command group aliases) (position : ℕ) :
    (Suggestion.mk position m.bucket m).Represents query aliases := by
  have hposition : (AliasConsole.rank query m.best).position = some m.position := by
    rw [h.rank_eq, rank]
  have hsurplus : (AliasConsole.rank query m.best).surplus = m.surplus := by
    rw [h.rank_eq, rank]
  obtain ⟨hoccurs, hbefore⟩ := position?_eq_some_iff.mp hposition
  refine ⟨h.aliases_eq, fun missing hmissing => ?_, h.rank_eq, hoccurs, hbefore,
    hsurplus.symm, hsurplus ▸ position_le_surplus hposition,
    Match.bucket_eq_startsWith_iff⟩
  have hbelow : ∀ a ∈ aliases, ∀ p, (AliasConsole.rank query a).position = some p →
      (p : ℤ) < missing := by
    intro a ha p hp
    have hlength := position_add_length_le hp
    have hbound := hmissing a ha
    omega
  exact h.isBest.firstLeast.of_key_lt_iff fun a ha b hb =>
    Rank.pair_lt_pair_iff (hbelow a ha) (hbelow b hb)

/-- Every suggestion of a position represents the group that the call has seen there. -/
theorem Scan.exists_represents {W : Type} {s : Scan W} {x : Suggestion}
    (hx : x ∈ suggestionsFrom 0 s.narrowings) :
    ∃ token aliases, s.tokens[x.position]? = some token ∧
      (s.groups x.position x.found.command)[x.found.group]? = some aliases ∧
      x.Represents (Text.lower token) aliases := by
  obtain ⟨i, n, hn, hposition, hfound, hbucket⟩ := mem_suggestionsFrom_iff.mp hx
  obtain ⟨hlt, rfl⟩ := getElem?_narrowings.mp hn
  rw [Nat.zero_add] at hposition
  subst hposition
  have htoken := List.getElem?_eq_getElem hlt
  obtain ⟨aliases, hgroup, hstands⟩ := standsFor_of_mem_found htoken hfound
  refine ⟨_, aliases, htoken, hgroup, ?_⟩
  have hrepresents := hstands.represents x.position
  rwa [hbucket] at hrepresents

/-- A group with an alias that holds the token matches in one of the buckets. -/
theorem Scan.exists_isMatch {W : Type} {s : Scan W} {position command group : ℕ} {token : Text}
    {aliases : AliasGroup} (halive : s.Alive position command)
    (hcovers : s.Covers position command) (htoken : s.tokens[position]? = some token)
    (hgroup : (s.groups position command)[group]? = some aliases)
    (hholds : GroupHolds (Text.lower token) aliases) :
    ∃ bucket, s.IsMatch position command group bucket := by
  have hne : aliases ≠ [] := by
    obtain ⟨spelling, hspelling, -⟩ := hholds
    exact List.ne_nil_of_mem hspelling
  by_cases hstarts : GroupStarts (Text.lower token) aliases
  · exact ⟨.startsWith, halive, hcovers, token, aliases, htoken, hgroup, hne, hholds,
      iff_of_true rfl hstarts⟩
  · exact ⟨.contains, halive, hcovers, token, aliases, htoken, hgroup, hne, hholds,
      iff_of_false nofun hstarts⟩

/-- A query that is found in a candidate is found at a place that is not negative and not
greater than the difference of lengths.  Every suggestion of a completion represents the
group that it was made for, and a group of a living command that covers the position is
listed whenever one of its aliases holds the token, whatever its other aliases are. -/
theorem autocomplete_represents {W : Type} {r : Registry W} (options : CompletionOptions)
    (line : Text) (w : W) :
    (∀ query candidate position, (rank query candidate).position = some position →
        (position : ℤ) ≤ (rank query candidate).surplus) ∧
      ((∃ completion last, autocomplete r options line w = .ok completion last) ↔
        ∃ table worlds, (Scan.ofLine r options line table).IsSnapshot w worlds) ∧
      ∀ table worlds, (Scan.ofLine r options line table).IsSnapshot w worlds →
        ∃ completion, autocomplete r options line w =
            .ok completion (worlds (tokenize line).length 0) ∧
          (∀ x ∈ completion.suggestions, ∃ token aliases,
            (tokenize line)[x.position]? = some token ∧
            (table x.position x.found.command)[x.found.group]? = some aliases ∧
            x.Represents (Text.lower token) aliases) ∧
          (options.collectSuggestions = true →
            ∀ position command group token aliases, (tokenize line)[position]? = some token →
              (Scan.ofLine r options line table).Alive position command →
              (Scan.ofLine r options line table).Covers position command →
              (table position command)[group]? = some aliases →
              GroupHolds (Text.lower token) aliases →
                ∃ x ∈ completion.suggestions, x.spot = (position, command, group)) := by
  refine ⟨fun _ _ _ => position_le_surplus, Scan.exists_autocomplete_iff,
    fun table worlds hsnapshot => ?_⟩
  refine ⟨_, hsnapshot.autocomplete_eq, ?_, ?_⟩
  · intro x hx
    exact Scan.exists_represents ((Completion.suggestions_sublist _ _ _).subset hx)
  · intro hcollect position command group token aliases htoken halive hcovers hgroup hholds
    obtain ⟨bucket, hmatch⟩ :=
      Scan.exists_isMatch (s := .ofLine r options line table) halive hcovers htoken hgroup hholds
    obtain ⟨x, hx, hspot, -⟩ := ((Scan.listsMatches _).isMatch_iff _ _ _ _).mp hmatch
    rw [Completion.ofNarrowings, if_pos hcollect]
    exact ⟨x, hx, hspot⟩

/-- A group whose aliases are too short for a query, hold it late, and start with it in
two spellings. -/
def dialects : List (List (List AliasGroup) × ℕ) :=
  [([[["tp".toList, "hotelephone".toList, "Teleport".toList, "TELEPORT".toList]]], 1)]

theorem autocomplete_represents_dialects :
    (rank "TELE".toList "tp".toList).surplus = -2 ∧
      (∃ worlds, (Scan.ofLine (.ofGroups Unit dialects) .full "TELE".toList
        (Registry.tableOf dialects)).IsSnapshot () worlds) ∧
      CompletionOptions.full.collectSuggestions = true ∧
      ∃ completion last, autocomplete (.ofGroups Unit dialects) .full "TELE".toList () =
          .ok completion last ∧
        ∃ x ∈ completion.suggestions, x.spot = (0, 0, 0) ∧
          x.found.best = "Teleport".toList ∧
          ∃ token aliases, (tokenize "TELE".toList)[x.position]? = some token ∧
            (Registry.tableOf dialects x.position x.found.command)[x.found.group]? =
              some aliases ∧
            x.Represents (Text.lower token) aliases := by
  obtain ⟨worlds, hsnapshot⟩ := (Registry.ofGroups_shows Unit dialects).exists_isSnapshot
    (by decide) false (tokenize "TELE".toList) ()
  obtain ⟨-, -, hrepresents⟩ :=
    autocomplete_represents (r := .ofGroups Unit dialects) .full "TELE".toList ()
  obtain ⟨completion, hok, hall, hlisted⟩ :=
    hrepresents (Registry.tableOf dialects) worlds hsnapshot
  have hcovers : (Scan.ofLine (.ofGroups Unit dialects) .full "TELE".toList
      (Registry.tableOf dialects)).Covers 0 0 := ⟨_, rfl, by decide⟩
  have hholds : GroupHolds (Text.lower "TELE".toList)
      ["tp".toList, "hotelephone".toList, "Teleport".toList, "TELEPORT".toList] :=
    ⟨"Teleport".toList, by simp, by decide +kernel⟩
  obtain ⟨x, hx, hspot⟩ := hlisted rfl 0 0 0 "TELE".toList _ (by decide +kernel)
    ((Scan.alive_zero _ 0).mpr (by decide)) hcovers rfl hholds
  have hrun : autocomplete (.ofGroups Unit dialects) .full "TELE".toList () = .ok _ _ := rfl
  obtain ⟨hcompletion, -⟩ := EStateM.Result.ok.inj (hok.symm.trans hrun)
  have hbests : completion.suggestions.map (·.found.best) = ["Teleport".toList] := by
    rw [hcompletion]
    decide +kernel
  have hbest : x.found.best = "Teleport".toList :=
    List.mem_singleton.mp (hbests ▸ List.mem_map_of_mem hx)
  exact ⟨by decide +kernel, ⟨worlds, hsnapshot⟩, rfl, completion, _, hok, x, hx, hspot, hbest,
    hall x hx⟩

end AliasConsole
