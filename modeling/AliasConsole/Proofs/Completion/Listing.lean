import AliasConsole.Completion.Basic
import AliasConsole.Proofs.Completion.Attempt
import Mathlib.Data.List.Basic

/-!
# The listing of suggestions

The suggestions of a completion list the matches of every position.  This
module shows that nothing is lost or repeated on the way from the matches that
narrowing finds to the listing, although the listing takes the buckets one
after the other and sorts each by rank.
-/

namespace AliasConsole

/-- The position, command and group that a suggestion is about. -/
def Suggestion.spot (x : Suggestion) : ℕ × ℕ × ℕ :=
  (x.position, x.found.command, x.found.group)

/-- The list has one suggestion for each match of the scan, in the bucket of the
match, and no other suggestion. -/
structure Scan.ListsMatches {W : Type} (s : Scan W) (suggestions : List Suggestion) :
    Prop where
  nodup : (suggestions.map Suggestion.spot).Nodup
  isMatch_iff : ∀ position command group bucket,
    s.IsMatch position command group bucket ↔
      ∃ x ∈ suggestions, x.spot = (position, command, group) ∧ x.bucket = bucket

namespace Narrowing

variable {n : Narrowing} {position : ℕ}

theorem perm_suggestions (n : Narrowing) (position : ℕ) :
    ((n.suggestions position).map Suggestion.found).Perm n.found := by
  have hsecond : n.inBucket .contains = n.found.filter fun m => !(m.bucket == .startsWith) := by
    rw [inBucket]
    congr 1
    funext m
    cases m.bucket <;> rfl
  have hmap : (n.suggestions position).map Suggestion.found =
      n.ranked .startsWith ++ n.ranked .contains := by
    simp [suggestions, Function.comp_def]
  rw [hmap]
  calc
    (n.ranked .startsWith ++ n.ranked .contains).Perm
        (n.inBucket .startsWith ++ n.inBucket .contains) :=
      (List.mergeSort_perm _ _).append (List.mergeSort_perm _ _)
    List.Perm _ n.found := by
      rw [hsecond, inBucket]
      exact List.filter_append_perm _ n.found

theorem mem_suggestions_iff {x : Suggestion} :
    x ∈ n.suggestions position ↔
      x.position = position ∧ x.found ∈ n.found ∧ x.found.bucket = x.bucket := by
  have hranked : ∀ bucket m, m ∈ n.ranked bucket ↔ m ∈ n.found ∧ m.bucket = bucket := by
    intro bucket m
    rw [ranked, List.mem_mergeSort, mem_inBucket_iff]
  simp only [suggestions, List.mem_flatMap, List.mem_map, hranked]
  constructor
  · rintro ⟨bucket, -, m, ⟨hm, hbucket⟩, rfl⟩
    exact ⟨rfl, hm, hbucket⟩
  · rintro ⟨hposition, hfound, hbucket⟩
    refine ⟨x.bucket, by cases x.bucket <;> simp, x.found, ⟨hfound, hbucket⟩, ?_⟩
    rw [← hposition]

theorem nodup_suggestions (hfound : n.found.Pairwise fun a b => a.place < b.place) :
    ((n.suggestions position).map Suggestion.spot).Nodup := by
  have hspot : (n.suggestions position).map Suggestion.spot =
      ((n.suggestions position).map Suggestion.found).map
        fun m => (position, m.command, m.group) := by
    rw [List.map_map]
    refine List.map_congr_left fun x hx => ?_
    rw [Suggestion.spot, (mem_suggestions_iff.mp hx).1]
    rfl
  rw [hspot, ((perm_suggestions n position).map _).nodup_iff, List.Nodup, List.pairwise_map]
  refine hfound.imp fun {a b} hlt heq => ?_
  rw [Prod.mk.injEq] at heq
  exact absurd hlt (by rw [Match.place, Match.place, heq.2]; exact lt_irrefl _)

end Narrowing

theorem mem_suggestionsFrom_iff {position : ℕ} {narrowings : List Narrowing}
    {x : Suggestion} :
    x ∈ suggestionsFrom position narrowings ↔
      ∃ i n, narrowings[i]? = some n ∧ x.position = position + i ∧
        x.found ∈ n.found ∧ x.found.bucket = x.bucket := by
  induction narrowings generalizing position with
  | nil => simp [suggestionsFrom]
  | cons n rest ih =>
      rw [suggestionsFrom, List.mem_append, Narrowing.mem_suggestions_iff, ih]
      constructor
      · rintro (⟨hposition, hfound⟩ | ⟨i, m, hm, hposition, hfound⟩)
        · exact ⟨0, n, rfl, hposition, hfound⟩
        · exact ⟨i + 1, m, hm, by omega, hfound⟩
      · rintro ⟨i, m, hm, hposition, hfound⟩
        cases i with
        | zero =>
            obtain rfl : n = m := Option.some.inj hm
            exact Or.inl ⟨hposition, hfound⟩
        | succ i => exact Or.inr ⟨i, m, hm, by omega, hfound⟩

theorem nodup_suggestionsFrom {narrowings : List Narrowing}
    (hfound : ∀ n ∈ narrowings, n.found.Pairwise fun a b => a.place < b.place)
    (position : ℕ) :
    ((suggestionsFrom position narrowings).map Suggestion.spot).Nodup := by
  induction narrowings generalizing position with
  | nil => simp [suggestionsFrom]
  | cons n rest ih =>
      rw [suggestionsFrom, List.map_append]
      refine List.nodup_append.mpr
        ⟨Narrowing.nodup_suggestions (hfound n (by simp)),
          ih (fun m hm => hfound m (List.mem_cons_of_mem n hm)) _, ?_⟩
      intro a ha b hb heq
      obtain ⟨x, hx, rfl⟩ := List.mem_map.mp ha
      obtain ⟨y, hy, rfl⟩ := List.mem_map.mp hb
      have hxposition := (Narrowing.mem_suggestions_iff.mp hx).1
      obtain ⟨i, -, -, hyposition, -⟩ := mem_suggestionsFrom_iff.mp hy
      have hsame : x.position = y.position := congrArg Prod.fst heq
      omega

/-- A completion has all suggestions of its narrowings or none. -/
theorem Completion.suggestions_sublist (options : CompletionOptions) (line : Text)
    (narrowings : List Narrowing) :
    (ofNarrowings options line narrowings).suggestions.Sublist
      (suggestionsFrom 0 narrowings) := by
  rw [ofNarrowings]
  dsimp only
  split_ifs
  · exact List.Sublist.refl _
  · exact List.nil_sublist _

namespace Scan

variable {W : Type} {s : Scan W}

theorem listsMatches (s : Scan W) : s.ListsMatches (suggestionsFrom 0 s.narrowings) := by
  constructor
  · refine nodup_suggestionsFrom (fun n hn => ?_) 0
    obtain ⟨position, -, rfl⟩ := List.mem_map.mp hn
    exact s.pairwise_found_narrowingAt position
  · intro position command group bucket
    constructor
    · intro hmatch
      obtain ⟨m, hm, rfl, rfl, rfl⟩ := (isMatch_iff hmatch.position_lt).mp hmatch
      refine ⟨⟨position, m.bucket, m⟩, ?_, rfl, rfl⟩
      exact mem_suggestionsFrom_iff.mpr ⟨position, s.narrowingAt position,
        getElem?_narrowings.mpr ⟨hmatch.position_lt, rfl⟩, (Nat.zero_add _).symm, hm, rfl⟩
    · rintro ⟨x, hx, hspot, rfl⟩
      obtain ⟨i, n, hn, hposition, hfound, hbucket⟩ := mem_suggestionsFrom_iff.mp hx
      obtain ⟨hlt, rfl⟩ := getElem?_narrowings.mp hn
      rw [Suggestion.spot, Prod.mk.injEq, Prod.mk.injEq] at hspot
      obtain ⟨rfl, rfl, rfl⟩ := hspot
      rw [Nat.zero_add] at hposition
      rw [hposition]
      exact (isMatch_iff hlt).mpr ⟨x.found, hfound, rfl, rfl, hbucket⟩

end Scan

/-- Completion lists the matches of what it sees, each once and in its bucket,
and nothing else. -/
theorem autocomplete_listsMatches {W : Type} {r : Registry W} (hfail : r.NeverFails)
    (hformed : r.WellFormed) (options : CompletionOptions)
    (hcollect : options.collectSuggestions = true) (line : Text) (w : W) :
    (∃ table worlds, (Scan.ofLine r options line table).IsSnapshot w worlds) ∧
      ∀ table worlds, (Scan.ofLine r options line table).IsSnapshot w worlds →
        ∃ completion, autocomplete r options line w =
            .ok completion (worlds (tokenize line).length 0) ∧
          (Scan.ofLine r options line table).ListsMatches completion.suggestions := by
  refine ⟨Registry.exists_isSnapshot hfail hformed _ _ w, ?_⟩
  intro table worlds hsnapshot
  refine ⟨_, hsnapshot.autocomplete_eq, ?_⟩
  rw [Completion.ofNarrowings, if_pos hcollect]
  exact Scan.listsMatches _

theorem autocomplete_listsMatches_counting :
    Registry.counting.NeverFails ∧ Registry.counting.WellFormed ∧
      CompletionOptions.full.collectSuggestions = true ∧
      (∃ table worlds, (Scan.ofLine Registry.counting .full "AB o".toList table).IsSnapshot
        3 worlds) ∧
      ∀ table worlds,
        (Scan.ofLine Registry.counting .full "AB o".toList table).IsSnapshot 3 worlds →
        ∃ completion, autocomplete Registry.counting .full "AB o".toList 3 =
            .ok completion (worlds (tokenize "AB o".toList).length 0) ∧
          (Scan.ofLine Registry.counting .full "AB o".toList table).ListsMatches
            completion.suggestions := by
  have hformed : Registry.counting.WellFormed := by decide
  exact ⟨Registry.counting_neverFails, hformed, rfl,
    autocomplete_listsMatches Registry.counting_neverFails hformed .full rfl "AB o".toList 3⟩

end AliasConsole
