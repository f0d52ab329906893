import AliasConsole.Proofs.Completion.Listing

/-!
# The order of the listing

The listing goes by position, then by bucket, then by rank, and what has the same rank
stays in the order of commands and groups.  The last part comes from sorting: the matches
are found in the order of commands and groups, and sorting a bucket by rank moves no two
matches of one rank past each other.
-/

namespace AliasConsole

/-! ## Stable sorting -/

section StableSort

variable {α κ : Type*} [LinearOrder κ] {key : α → κ} {le : α → α → Bool} {items : List α}
  (hle : ∀ a b, le a b = true ↔ key a ≤ key b)

include hle

theorem trans_of_key (a b c : α) (hab : le a b = true) (hbc : le b c = true) : le a c = true :=
  (hle a c).mpr (le_trans ((hle a b).mp hab) ((hle b c).mp hbc))

theorem total_of_key (a b : α) : (le a b || le b a) = true := by
  rw [Bool.or_eq_true, hle, hle]
  exact le_total (key a) (key b)

theorem pairwise_key_mergeSort (items : List α) :
    (items.mergeSort le).Pairwise fun a b => key a ≤ key b :=
  (List.pairwise_mergeSort (trans_of_key hle) (total_of_key hle) items).imp
    fun {a b} => (hle a b).mp

/-- The items of one key are neither lost nor moved among each other. -/
theorem filter_mergeSort_eq (items : List α) (k : κ) :
    (items.mergeSort le).filter (key · = k) = items.filter (key · = k) := by
  have hequal : (items.filter (key · = k)).Pairwise fun a b => le a b = true := by
    refine List.pairwise_filter.mpr (List.pairwise_of_forall fun a b ha hb => ?_)
    rw [decide_eq_true_eq] at ha hb
    exact (hle a b).mpr (ha.trans hb.symm).le
  have hkept : (items.filter (key · = k)).Sublist (items.mergeSort le) :=
    List.sublist_mergeSort (trans_of_key hle) (total_of_key hle) hequal List.filter_sublist
  have hfiltered := hkept.filter fun a => key a = k
  rw [List.filter_filter] at hfiltered
  simp only [Bool.and_self] at hfiltered
  have hlength := ((List.mergeSort_perm items le).filter fun a => key a = k).length_eq
  exact (hfiltered.eq_of_length_le hlength.le).symm

/-- Sorting by a key keeps whatever holds from left to right among items of one key. -/
theorem pairwise_mergeSort_stable {R : α → α → Prop} (hitems : items.Pairwise R) :
    (items.mergeSort le).Pairwise fun a b => key a ≤ key b ∧ (key a = key b → R a b) := by
  rw [List.pairwise_iff_forall_sublist]
  intro a b hab
  refine ⟨List.pairwise_iff_forall_sublist.mp (pairwise_key_mergeSort hle items) hab, ?_⟩
  intro hkey
  have hclass := hab.filter fun c => key c = key b
  rw [filter_mergeSort_eq hle, List.filter_cons_of_pos (by simpa using hkey),
    List.filter_cons_of_pos (by simp), List.filter_nil] at hclass
  exact List.pairwise_iff_forall_sublist.mp hitems (hclass.trans List.filter_sublist)

end StableSort

/-! ## The order of suggestions -/

/-- The suggestion may stand before the other one: the order goes by position, then by
bucket, then by rank, and then by command and group. -/
structure Suggestion.Precedes (a b : Suggestion) : Prop where
  position_le : a.position ≤ b.position
  bucket_le : a.position = b.position → b.bucket = .startsWith → a.bucket = .startsWith
  rank_le : a.position = b.position → a.bucket = b.bucket →
    a.found.rank.key ≤ b.found.rank.key
  place_lt : a.position = b.position → a.bucket = b.bucket → a.found.rank = b.found.rank →
    a.found.place < b.found.place

theorem Suggestion.Precedes.of_position_lt {a b : Suggestion} (h : a.position < b.position) :
    a.Precedes b :=
  ⟨h.le, fun heq => absurd heq h.ne, fun heq => absurd heq h.ne, fun heq => absurd heq h.ne⟩

theorem Match.pairwise_mergeSort {found : List Match}
    (hfound : found.Pairwise fun a b => a.place < b.place) :
    (found.mergeSort fun a b => !b.better a).Pairwise fun a b =>
      a.rank.key ≤ b.rank.key ∧ (a.rank.key = b.rank.key → a.place < b.place) := by
  refine pairwise_mergeSort_stable (fun a b => ?_) hfound
  rw [Bool.not_eq_true', Bool.eq_false_iff, ne_eq, Match.better_iff, not_lt]

namespace Narrowing

variable {n : Narrowing}

theorem pairwise_suggestions (hfound : n.found.Pairwise fun a b => a.place < b.place)
    (position : ℕ) : (n.suggestions position).Pairwise Suggestion.Precedes := by
  have hbucket : ∀ bucket, ((n.ranked bucket).map
      (Suggestion.mk position bucket)).Pairwise Suggestion.Precedes := by
    intro bucket
    rw [List.pairwise_map]
    refine (Match.pairwise_mergeSort (hfound.filter _)).imp fun {a b} h => ?_
    obtain ⟨hrank, hstable⟩ := h
    exact ⟨le_rfl, fun _ hstarts => hstarts, fun _ _ => hrank,
      fun _ _ heq => hstable (congrArg Rank.key heq)⟩
  simp only [suggestions, List.flatMap_cons, List.flatMap_nil, List.append_nil]
  refine List.pairwise_append.mpr ⟨hbucket _, hbucket _, ?_⟩
  intro a ha b hb
  obtain ⟨m, -, rfl⟩ := List.mem_map.mp ha
  obtain ⟨m', -, rfl⟩ := List.mem_map.mp hb
  have hother : Bucket.startsWith ≠ .contains := by decide
  exact ⟨le_rfl, fun _ _ => rfl, fun _ heq => absurd heq hother, fun _ heq => absurd heq hother⟩

end Narrowing

theorem pairwise_suggestionsFrom {narrowings : List Narrowing}
    (hfound : ∀ n ∈ narrowings, n.found.Pairwise fun a b => a.place < b.place)
    (position : ℕ) : (suggestionsFrom position narrowings).Pairwise Suggestion.Precedes := by
  induction narrowings generalizing position with
  | nil => exact List.Pairwise.nil
  | cons n rest ih =>
      obtain ⟨hn, hrest⟩ := List.forall_mem_cons.mp hfound
      rw [suggestionsFrom]
      refine List.pairwise_append.mpr
        ⟨Narrowing.pairwise_suggestions hn position, ih hrest (position + 1), ?_⟩
      intro a ha b hb
      have haposition := (Narrowing.mem_suggestions_iff.mp ha).1
      obtain ⟨i, -, -, hbposition, -⟩ := mem_suggestionsFrom_iff.mp hb
      exact .of_position_lt (by omega)

/-- The suggestions of a completion stand in the order of positions, buckets, ranks,
commands and groups. -/
theorem autocomplete_ordered {W : Type} {r : Registry W} {options : CompletionOptions}
    {line : Text} {w last : W} {completion : Completion}
    (h : autocomplete r options line w = .ok completion last) :
    completion.suggestions.Pairwise Suggestion.Precedes := by
  obtain ⟨table, worlds, hsnapshot⟩ := Scan.exists_autocomplete_iff.mp ⟨completion, last, h⟩
  rw [hsnapshot.autocomplete_eq] at h
  obtain ⟨rfl, -⟩ := EStateM.Result.ok.inj h
  refine (pairwise_suggestionsFrom (fun n hn => ?_) 0).sublist
    (Completion.suggestions_sublist _ _ _)
  obtain ⟨position, -, rfl⟩ := List.mem_map.mp hn
  exact Scan.pairwise_found_narrowingAt _ position

/-- Two commands with groups of the same rank; the groups that match best come last. -/
def steeps : List (List (List AliasGroup) × ℕ) :=
  [([[["steam".toList], ["team".toList], ["tea".toList]]], 1),
    ([[["team".toList], ["atea".toList]]], 1)]

theorem autocomplete_ordered_steeps :
    ∃ completion last, autocomplete (.ofGroups Unit steeps) .full "TEA".toList () =
        .ok completion last ∧
      completion.suggestions.length = 5 ∧
      completion.suggestions.Pairwise Suggestion.Precedes := by
  have hok : autocomplete (.ofGroups Unit steeps) .full "TEA".toList () = .ok _ _ := rfl
  refine ⟨_, _, hok, ?_, autocomplete_ordered hok⟩
  change (suggestionsFrom 0 [Narrowing.of _ _]).length = 5
  rw [suggestionsFrom, suggestionsFrom, List.append_nil, ← List.length_map Suggestion.found,
    (Narrowing.perm_suggestions _ 0).length_eq]
  decide +kernel

end AliasConsole
