import AliasConsole.Proofs.Completion.CommonPrefix
import AliasConsole.Proofs.Text.Lowering
import AliasConsole.Proofs.Text.Occurrence
import Mathlib.Data.List.Basic

/-!
# Completing a completed token

A token that is completed from the preferred bucket becomes a longer query.
The groups that start with the longer query are those that start with the
shorter one, each with the same best alias, and their ranks improve by the same
number.  So completing the completed token selects the same matches again.
-/

namespace AliasConsole

section Rank

variable {query longer x y : Text}

theorem rank_lower (query candidate : Text) :
    rank (Text.lower query) candidate = rank query candidate := by
  rw [rank, rank, lower_lower]

theorem rank_position_eq_zero_iff :
    (rank query x).position = some 0 ↔ Text.lower query <+: Text.lower x :=
  position?_eq_some_zero_iff

theorem rank_of_start (hx : Text.lower query <+: Text.lower x) :
    rank query x =
      ⟨some 0, ((Text.lower x).length : ℤ) - (Text.lower query).length⟩ := by
  rw [← rank_position_eq_zero_iff.mpr hx]
  rfl

/-- What does not start with the query ranks behind all that does. -/
theorem key_lt_of_not_start (hx : Text.lower query <+: Text.lower x)
    (hy : ¬Text.lower query <+: Text.lower y) : (rank query x).key < (rank query y).key := by
  rw [rank_of_start hx]
  cases hposition : (rank query y).position with
  | none => exact Rank.key_lt_of_position_eq_none (by simp) hposition
  | some position =>
      have hpos : 0 < position := by
        refine Nat.pos_of_ne_zero fun hzero => hy (rank_position_eq_zero_iff.mp ?_)
        rw [hposition, hzero]
      rw [Rank.key, Rank.key, Prod.Lex.toLex_lt_toLex, hposition]
      exact Or.inl (by simpa using hpos)

theorem key_lt_iff (hx : Text.lower query <+: Text.lower x) :
    (rank query x).key < (rank query y).key ↔
      (Text.lower query <+: Text.lower y →
        (Text.lower x).length < (Text.lower y).length) := by
  by_cases hy : Text.lower query <+: Text.lower y
  · rw [rank_of_start hx, rank_of_start hy, Rank.key, Rank.key, Prod.Lex.toLex_lt_toLex]
    simp [hy]
  · exact iff_of_true (key_lt_of_not_start hx hy) fun h => absurd h hy

theorem key_le_iff (hx : Text.lower query <+: Text.lower x) :
    (rank query x).key ≤ (rank query y).key ↔
      (Text.lower query <+: Text.lower y →
        (Text.lower x).length ≤ (Text.lower y).length) := by
  by_cases hy : Text.lower query <+: Text.lower y
  · rw [rank_of_start hx, rank_of_start hy, Rank.key, Rank.key, Prod.Lex.toLex_le_toLex]
    simp [hy]
  · exact iff_of_true (key_lt_of_not_start hx hy).le fun h => absurd h hy

end Rank

/-- The match for a query that has more characters. -/
def Match.lengthened (more : ℤ) (m : Match) : Match :=
  { m with surplus := m.surplus - more }

@[simp] theorem Match.bucket_lengthened (more : ℤ) (m : Match) :
    (m.lengthened more).bucket = m.bucket :=
  rfl

theorem Match.better_lengthened (more : ℤ) (m n : Match) :
    (m.lengthened more).better (n.lengthened more) = m.better n := by
  rw [Bool.eq_iff_iff, better_iff, better_iff]
  simp [rank, Rank.key, Prod.Lex.toLex_lt_toLex, lengthened]

section Longer

variable {query longer : Text} (hlonger : Text.lower query <+: Text.lower longer)
  {spelling : Text} {aliases : AliasGroup} {command group : ℕ}

include hlonger

/-- The best alias of a group remains the best one if it starts with the longer
query. -/
theorem IsBest.of_longer (h : IsBest query aliases spelling)
    (hspelling : Text.lower longer <+: Text.lower spelling) :
    IsBest longer aliases spelling := by
  have hshort : Text.lower query <+: Text.lower spelling := hlonger.trans hspelling
  obtain ⟨before, after, hsplit, hbefore, hafter⟩ := h.firstLeast
  refine ⟨by rw [rank_of_start hspelling]; simp, before, after, hsplit, ?_, ?_⟩
  · intro y hy
    have hlt := (key_lt_iff hshort).mp (hbefore y hy)
    exact (key_lt_iff hspelling).mpr fun hstart => hlt (hlonger.trans hstart)
  · intro y hy
    have hle := (key_le_iff hshort).mp (hafter y hy)
    exact (key_le_iff hspelling).mpr fun hstart => hle (hlonger.trans hstart)

theorem GroupStarts.of_longer (h : GroupStarts longer aliases) : GroupStarts query aliases := by
  obtain ⟨x, hx, hzero⟩ := h
  have hstart := rank_position_eq_zero_iff.mp hzero
  exact ⟨x, hx, rank_position_eq_zero_iff.mpr (hlonger.trans hstart)⟩

theorem Match.StandsFor.of_longer {m : Match} (h : m.StandsFor query command group aliases)
    (hbest : Text.lower longer <+: Text.lower m.best) :
    (m.lengthened ((Text.lower longer).length - (Text.lower query).length)).StandsFor
      longer command group aliases := by
  refine ⟨h.command_eq, h.group_eq, h.aliases_eq, ?_, h.isBest.of_longer hlonger hbest⟩
  have hrank := h.rank_eq
  rw [rank_of_start (hlonger.trans hbest), Match.rank, Rank.mk.injEq] at hrank
  obtain ⟨hposition, hsurplus⟩ := hrank
  change AliasConsole.rank longer m.best = ⟨some m.position, m.surplus - _⟩
  rw [rank_of_start hbest, ← hposition, ← hsurplus, Rank.mk.injEq]
  exact ⟨rfl, by omega⟩

/-- A group that starts with the longer query has the same best match for both
queries, and no other group starts with it. -/
theorem filter_bestMatch?_of_longer
    (hbest : ∀ m, bestMatch? query command group aliases = some m → m.bucket = .startsWith →
      Text.lower longer <+: Text.lower m.best) :
    (bestMatch? longer command group aliases).filter (·.bucket == .startsWith) =
      ((bestMatch? query command group aliases).filter (·.bucket == .startsWith)).map
        (Match.lengthened ((Text.lower longer).length - (Text.lower query).length)) := by
  by_cases hstarts : GroupStarts query aliases
  · obtain ⟨x, hx, hzero⟩ := id hstarts
    obtain ⟨m, hm⟩ := exists_bestMatch? command group
      (⟨x, hx, by rw [hzero]; simp⟩ : GroupHolds query aliases)
    have hstands := standsFor_of_bestMatch? hm
    have hbucket := hstands.bucket_eq_startsWith_iff.mpr hstarts
    have hlengthened := hstands.of_longer hlonger (hbest m hm hbucket)
    rw [hm, bestMatch?_eq_some_iff.mpr hlengthened, Option.filter_some_pos (by simpa using hbucket),
      Option.filter_some_pos (by simpa using hbucket), Option.map_some]
  · have hnone : ∀ q : Text, ¬GroupStarts q aliases →
        (bestMatch? q command group aliases).filter (·.bucket == .startsWith) = none := by
      intro q hq
      rw [Option.filter_eq_none_iff]
      intro m hm hbucket
      exact hq ((standsFor_of_bestMatch? hm).bucket_eq_startsWith_iff.mp (by simpa using hbucket))
    rw [hnone query hstarts, hnone longer fun h => hstarts (h.of_longer hlonger)]
    rfl

end Longer

/-! ## The completed token -/

section Completed

variable {typed : Text} {aliases : List Text}

theorem text_completeToken_of_not_replaced (h : (completeToken typed aliases).replaced = false) :
    (completeToken typed aliases).text = typed := by
  cases aliases with
  | nil => rfl
  | cons first rest =>
      rw [completeToken] at h ⊢
      by_cases hzero : commonLength first rest = 0
      · rw [if_pos hzero]
      · rw [if_neg hzero] at h
        cases h

theorem completeToken_of_replaced (h : (completeToken typed aliases).replaced = true)
    (other : Text) : completeToken other aliases = completeToken typed aliases := by
  cases aliases with
  | nil => cases h
  | cons first rest =>
      rw [completeToken] at h
      by_cases hzero : commonLength first rest = 0
      · rw [if_pos hzero] at h
        cases h
      · rw [completeToken, completeToken, if_neg hzero, if_neg hzero]

/-- If all aliases start with the typed token, the token becomes a beginning of
all of them that starts with what was typed. -/
theorem IsCompletion.grows {token : CompletedToken} (h : IsCompletion typed token aliases)
    (hne : typed ≠ []) (haliases : aliases ≠ []) (htyped : IsAscii typed)
    (hascii : ∀ a ∈ aliases, IsAscii a)
    (hstart : ∀ a ∈ aliases, Text.lower typed <+: Text.lower a) :
    token.replaced = true ∧ IsAscii token.text ∧
      Text.lower typed <+: Text.lower token.text ∧
      ∀ a ∈ aliases, Text.lower token.text <+: Text.lower a := by
  cases aliases with
  | nil => exact absurd rfl haliases
  | cons first rest =>
      obtain ⟨k, hk, -, hpos⟩ := h
      have htake : ∀ a ∈ first :: rest, Text.lower (a.take typed.length) = Text.lower typed := by
        intro a ha
        rw [lower_take (hascii a ha), ← length_lower htyped]
        exact (List.prefix_iff_eq_take.mp (hstart a ha)).symm
      have hlong : typed.length ≤ k := by
        refine hk.2 fun a ha => ⟨?_, ?_⟩
        · rw [← length_lower htyped, ← length_lower (hascii a ha)]
          exact (hstart a ha).length_le
        · rw [SameUpToCase, map_foldChar_eq_iff ((hascii first (by simp)).take _)
            ((hascii a ha).take _), htake first (by simp), htake a ha]
      have hpositive : 0 < typed.length := List.length_pos_iff.mpr hne
      have hk0 : k ≠ 0 := Nat.ne_of_gt (lt_of_lt_of_le hpositive hlong)
      obtain ⟨htext, hreplaced, -⟩ := hpos hk0
      have hsame : ∀ a ∈ first :: rest, Text.lower (first.take k) = (Text.lower a).take k := by
        intro a ha
        rw [← lower_take (hascii a ha)]
        exact (map_foldChar_eq_iff ((hascii first (by simp)).take k) ((hascii a ha).take k)).mp
          (hk.1 a ha).2
      refine ⟨hreplaced, htext ▸ (hascii first (by simp)).take k, ?_, ?_⟩
      · rw [htext, hsame first (by simp)]
        exact List.prefix_take_iff.mpr
          ⟨hstart first (by simp), by rw [length_lower htyped]; exact hlong⟩
      · intro a ha
        rw [htext, hsame a ha]
        exact List.take_prefix k _

end Completed

namespace Narrowing

/-- The second narrowing completes and keeps the same, and it finds the same in
the preferred bucket for a query that may be longer. -/
structure Repeats (n n' : Narrowing) : Prop where
  completed : n'.completed = n.completed
  keeps : ∀ command, n'.keeps command = n.keeps command
  starts : ∃ more, n'.inBucket .startsWith = (n.inBucket .startsWith).map (Match.lengthened more)

theorem Repeats.refl (n : Narrowing) : n.Repeats n := by
  refine ⟨rfl, fun _ => rfl, 0, ?_⟩
  have hid : Match.lengthened 0 = id := by
    funext m
    rw [Match.lengthened, Int.sub_zero]
    rfl
  rw [hid, List.map_id]

variable {token longer : Text} {evaluated : List (ℕ × List AliasGroup)}

theorem start_of_mem_inBucket {m : Match}
    (hm : m ∈ (Narrowing.of token evaluated).inBucket .startsWith) :
    Text.lower (Text.lower token) <+: Text.lower m.best := by
  obtain ⟨hfound, hbucket⟩ := mem_inBucket_iff.mp hm
  obtain ⟨⟨command, groups⟩, -, hgroup⟩ := List.mem_flatMap.mp hfound
  obtain ⟨aliases, -, hstands⟩ := mem_groupMatches_iff.mp hgroup
  have hzero := hstands.isBest.position_eq_zero (hstands.bucket_eq_startsWith_iff.mp hbucket)
  exact rank_position_eq_zero_iff.mp hzero

/-- A longer query that still starts all best aliases of the preferred bucket
has the same preferred bucket. -/
theorem inBucket_of_longer
    (hlonger : Text.lower (Text.lower token) <+: Text.lower (Text.lower longer))
    (hbest : ∀ m ∈ (Narrowing.of token evaluated).inBucket .startsWith,
      Text.lower (Text.lower longer) <+: Text.lower m.best) :
    (Narrowing.of longer evaluated).inBucket .startsWith =
      ((Narrowing.of token evaluated).inBucket .startsWith).map (Match.lengthened
        ((Text.lower (Text.lower longer)).length - (Text.lower (Text.lower token)).length)) := by
  simp only [inBucket, Narrowing.of, List.filter_flatMap, List.map_flatMap, groupMatches,
    List.filter_filterMap, List.map_filterMap]
  refine List.flatMap_congr fun entry hentry => List.filterMap_congr fun pair hpair => ?_
  refine filter_bestMatch?_of_longer hlonger fun m hm hbucket => hbest m ?_
  refine mem_inBucket_iff.mpr ⟨List.mem_flatMap.mpr ⟨entry, hentry, ?_⟩, hbucket⟩
  exact List.mem_filterMap.mpr ⟨pair, hpair, hm⟩

theorem selected_of_ne_nil {n : Narrowing} (h : n.inBucket .startsWith ≠ []) :
    n.selected = n.inBucket .startsWith := by
  obtain ⟨m, hm⟩ := List.exists_mem_of_ne_nil _ h
  exact selected_of_exists ⟨m, mem_inBucket_iff.mp hm⟩

theorem repeats_of_starts {n n' : Narrowing} {more : ℤ}
    (hstarts : n'.inBucket .startsWith = (n.inBucket .startsWith).map (Match.lengthened more))
    (hnonempty : n.inBucket .startsWith ≠ []) (hreplaced : n.completed.replaced = true) :
    n.Repeats n' := by
  have hnonempty' : n'.inBucket .startsWith ≠ [] := by simpa [hstarts] using hnonempty
  have hselected : n'.selected = n.selected.map (Match.lengthened more) := by
    rw [selected_of_ne_nil hnonempty', selected_of_ne_nil hnonempty, hstarts]
  refine ⟨?_, fun command => ?_, more, hstarts⟩
  · rw [completed, hselected, List.map_map]
    exact completeToken_of_replaced hreplaced n'.token
  · rw [keeps, keeps, hselected, List.any_map]
    rfl

/-- Completing a token again that has been completed from the preferred bucket,
or left as it is, repeats what has been found. -/
theorem repeats_of_completed (htoken : IsAscii token) (hne : token ≠ [])
    (hascii : ∀ m ∈ (Narrowing.of token evaluated).selected, IsAscii m.best)
    (hstarts : (Narrowing.of token evaluated).completed.replaced = true →
      (Narrowing.of token evaluated).inBucket .startsWith ≠ []) :
    (Narrowing.of token evaluated).Repeats
      (Narrowing.of (Narrowing.of token evaluated).completed.text evaluated) := by
  by_cases hnil : (Narrowing.of token evaluated).inBucket .startsWith = []
  · have hleft : (Narrowing.of token evaluated).completed.replaced = false :=
      Bool.eq_false_of_not_eq_true fun h => hstarts h hnil
    have htext : (Narrowing.of token evaluated).completed.text = token :=
      text_completeToken_of_not_replaced hleft
    rw [htext]
    exact Repeats.refl _
  · have hselected := selected_of_ne_nil hnil
    have hstart : ∀ m ∈ (Narrowing.of token evaluated).selected,
        Text.lower token <+: Text.lower m.best := by
      intro m hm
      rw [hselected] at hm
      rw [← lower_lower]
      exact start_of_mem_inBucket hm
    have hbests : (Narrowing.of token evaluated).selected.map Match.best ≠ [] := by
      simpa [hselected] using hnil
    have hcompletion : IsCompletion token (Narrowing.of token evaluated).completed
        ((Narrowing.of token evaluated).selected.map Match.best) :=
      isCompletion_completeToken _ _
    obtain ⟨hreplaced, -, hgrows, hbest⟩ := hcompletion.grows hne hbests htoken
      (List.forall_mem_map.mpr hascii) (List.forall_mem_map.mpr hstart)
    refine repeats_of_starts (inBucket_of_longer ?_ ?_) hnil hreplaced
    · rw [lower_lower, lower_lower]
      exact hgrows
    · intro m hm
      rw [lower_lower]
      exact hbest m.best (List.mem_map_of_mem (hselected ▸ hm))

end Narrowing

end AliasConsole
