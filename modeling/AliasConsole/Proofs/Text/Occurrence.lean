import AliasConsole.Completion.Matching
import AliasConsole.Proofs.Text.Ascii

/-!
# Occurrences

A query occurs at the start of a text exactly when it is an initial segment of
the text, and a beginning of the text keeps the query exactly when it holds all of
its first occurrence.  Ranks compare ASCII texts without capitals as they are.
-/

namespace AliasConsole

theorem position?_eq_some_zero_iff {query t : Text} :
    Text.position? query t = some 0 ↔ query <+: t := by
  cases t with
  | nil =>
      cases query with
      | nil => simp [Text.position?]
      | cons c rest => simp [Text.position?]
  | cons c rest =>
      rw [Text.position?, ← List.isPrefixOf_iff_prefix]
      by_cases hinitial : query.isPrefixOf (c :: rest) = true
      · simp [hinitial]
      · simp [hinitial]

/-- The position of a query is the first place at which the text goes on with it. -/
theorem position?_eq_some_iff {query t : Text} {place : Nat} :
    Text.position? query t = some place ↔
      query <+: t.drop place ∧ ∀ i < place, ¬query <+: t.drop i := by
  induction t generalizing place with
  | nil =>
      cases query with
      | nil =>
          cases place with
          | zero => simp [Text.position?]
          | succ place =>
              refine iff_of_false (by simp [Text.position?]) fun h => ?_
              exact h.2 0 (Nat.succ_pos place) List.nil_prefix
      | cons c rest => simp [Text.position?]
  | cons c rest ih =>
      cases place with
      | zero => simpa using position?_eq_some_zero_iff
      | succ place =>
          rw [Text.position?]
          by_cases hinitial : query.isPrefixOf (c :: rest) = true
          · rw [if_pos hinitial]
            refine iff_of_false (by simp) fun h => h.2 0 (Nat.succ_pos place) ?_
            exact List.isPrefixOf_iff_prefix.mp hinitial
          · rw [if_neg hinitial, Option.map_eq_some_iff, List.drop_succ_cons,
              Nat.forall_lt_succ_left, List.drop_zero]
            simp only [Nat.add_right_cancel_iff, exists_eq_right, ih, List.drop_succ_cons]
            rw [List.isPrefixOf_iff_prefix] at hinitial
            tauto

theorem position_add_length_le {query t : Text} {place : Nat}
    (h : Text.position? query t = some place) : place + query.length ≤ t.length := by
  obtain ⟨hoccurs, hfirst⟩ := position?_eq_some_iff.mp h
  have hlength := hoccurs.length_le
  rw [List.length_drop] at hlength
  by_cases hle : place ≤ t.length
  · omega
  · have hnil : query = [] := List.eq_nil_of_length_eq_zero (by omega)
    exact absurd (hnil ▸ List.nil_prefix) (hfirst 0 (by omega))

/-- A beginning of a text contains a query exactly if it reaches to the end of the first
occurrence of the query. -/
theorem infix_take_iff {query t : Text} {place k : Nat}
    (hplace : Text.position? query t = some place) (hk : k ≤ t.length) :
    query <:+: t.take k ↔ place + query.length ≤ k := by
  obtain ⟨hoccurs, hfirst⟩ := position?_eq_some_iff.mp hplace
  constructor
  · rintro ⟨before, after, hsplit⟩
    have hlength := congrArg List.length hsplit
    rw [List.length_append, List.length_append, List.length_take_of_le hk] at hlength
    have hbefore : query <+: t.drop before.length := by
      have hinside : query <+: (t.take k).drop before.length :=
        ⟨after, by rw [← hsplit, List.append_assoc, List.drop_left]⟩
      rw [List.drop_take] at hinside
      exact hinside.trans (List.take_prefix _ _)
    have hle : place ≤ before.length := Nat.le_of_not_lt fun hlt => hfirst _ hlt hbefore
    omega
  · intro hreach
    have hstart : query <+: (t.take k).drop place := by
      rw [List.drop_take, List.prefix_take_iff]
      exact ⟨hoccurs, by omega⟩
    exact hstart.isInfix.trans (List.drop_suffix place _).isInfix

/-- Among ASCII texts without capitals the rank of an extension of the query
is the number of characters it adds. -/
theorem rank_of_isLowerAscii {query spelling : Text} (hquery : IsLowerAscii query)
    (hspelling : IsLowerAscii spelling) :
    rank query spelling =
      ⟨Text.position? query spelling, (spelling.length : Int) - query.length⟩ := by
  rw [rank, lower_of_isLowerAscii hquery, lower_of_isLowerAscii hspelling]

end AliasConsole
