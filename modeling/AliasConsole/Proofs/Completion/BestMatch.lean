import AliasConsole.Completion.Matching
import Mathlib.Data.Prod.Lex
import Mathlib.Order.WithBot

/-!
# The best alias of a group

Ranks are compared by position first and by surplus second, a missing position
coming last.  The best alias of a group is the first one of least rank among
those that hold the query.  This module shows that the match of a group stands
for its best alias, and that the matches of a command come in the order of
their groups.
-/

namespace AliasConsole

/-! ## The first least item of a list -/

section FirstLeast

variable {α κ : Type*} [LinearOrder κ] {key : α → κ} {items : List α} {x y : α}

/-- The item has the least key of the list, and every item before it has a
greater one. -/
def IsFirstLeast (key : α → κ) (items : List α) (x : α) : Prop :=
  ∃ before after, items = before ++ x :: after ∧
    (∀ y ∈ before, key x < key y) ∧ ∀ y ∈ after, key x ≤ key y

theorem IsFirstLeast.mem (h : IsFirstLeast key items x) : x ∈ items := by
  obtain ⟨before, after, rfl, -, -⟩ := h
  simp

theorem IsFirstLeast.key_le (h : IsFirstLeast key items x) (hy : y ∈ items) :
    key x ≤ key y := by
  obtain ⟨before, after, rfl, hbefore, hafter⟩ := h
  simp only [List.mem_append, List.mem_cons] at hy
  rcases hy with hy | rfl | hy
  · exact (hbefore y hy).le
  · exact le_rfl
  · exact hafter y hy

theorem IsFirstLeast.unique (hx : IsFirstLeast key items x)
    (hy : IsFirstLeast key items y) : x = y := by
  have hxy := hx.key_le hy.mem
  have hyx := hy.key_le hx.mem
  obtain ⟨before, after, rfl, hbefore, -⟩ := hx
  obtain ⟨before', after', hsplit, hbefore', -⟩ := hy
  rcases List.append_eq_append_iff.mp hsplit with ⟨mid, rfl, hmid⟩ | ⟨mid, rfl, hmid⟩
  · cases mid with
    | nil => exact (List.cons.inj hmid).1
    | cons z mid =>
        have hz : x = z := (List.cons.inj hmid).1
        exact absurd hxy (not_le_of_gt (hbefore' x (by simp [hz])))
  · cases mid with
    | nil => exact (List.cons.inj hmid).1.symm
    | cons z mid =>
        have hz : y = z := (List.cons.inj hmid).1
        exact absurd hyx (not_le_of_gt (hbefore y (by simp [hz])))

theorem IsFirstLeast.cons (h : IsFirstLeast key items x) (hy : key x < key y) :
    IsFirstLeast key (y :: items) x := by
  obtain ⟨before, after, rfl, hbefore, hafter⟩ := h
  exact ⟨y :: before, after, rfl, by simpa using ⟨hy, hbefore⟩, hafter⟩

theorem IsFirstLeast.insert {first : α} (h : IsFirstLeast key (first :: items) x)
    (hy : key first ≤ key y) : IsFirstLeast key (first :: y :: items) x := by
  obtain ⟨before, after, hsplit, hbefore, hafter⟩ := h
  cases before with
  | nil =>
      obtain ⟨rfl, rfl⟩ := List.cons.inj hsplit
      exact ⟨[], y :: items, rfl, by simp, by simpa using ⟨hy, hafter⟩⟩
  | cons head before =>
      obtain ⟨rfl, rfl⟩ := List.cons.inj hsplit
      have hfirst : key x < key first := hbefore first (by simp)
      refine ⟨first :: y :: before, after, rfl, ?_, hafter⟩
      intro z hz
      simp only [List.mem_cons] at hz
      rcases hz with rfl | rfl | hz
      · exact hfirst
      · exact lt_of_lt_of_le hfirst hy
      · exact hbefore z (List.mem_cons_of_mem first hz)

/-- Folding with a choice that prefers the earlier of two equally good items
ends in the first least item. -/
theorem isFirstLeast_foldl {choose : α → α → α}
    (hchoose : ∀ a b, choose a b = if key b < key a then b else a)
    (first : α) (rest : List α) :
    IsFirstLeast key (first :: rest) (rest.foldl choose first) := by
  induction rest generalizing first with
  | nil => exact ⟨[], [], rfl, by simp, by simp⟩
  | cons next rest ih =>
      rw [List.foldl_cons, hchoose]
      by_cases hnext : key next < key first
      · rw [if_pos hnext]
        have hbest := ih next
        exact hbest.cons (lt_of_le_of_lt (hbest.key_le (by simp)) hnext)
      · rw [if_neg hnext]
        exact (ih first).insert (not_lt.mp hnext)

/-- Items that a partial map drops do not matter if they are worse than all
others. -/
theorem IsFirstLeast.of_filterMap {β : Type*} {f : α → Option β} {keyOf : β → κ}
    {b : β} (h : IsFirstLeast keyOf (items.filterMap f) b) (key : α → κ)
    (hkept : ∀ a c, f a = some c → key a = keyOf c)
    (hdropped : ∀ a c d, f a = some d → f c = none → key a < key c) :
    ∃ a, f a = some b ∧ IsFirstLeast key items a := by
  obtain ⟨before, after, hsplit, hbefore, hafter⟩ := h
  obtain ⟨front, back, rfl, hfront, hback⟩ := List.filterMap_eq_append_iff.mp hsplit
  obtain ⟨gap, a, back, rfl, hgap, ha, hback⟩ := List.filterMap_eq_cons_iff.mp hback
  have hkey : key a = keyOf b := hkept a b ha
  refine ⟨a, ha, front ++ gap, back, by simp, ?_, ?_⟩
  · intro c hc
    cases hfc : f c with
    | none => exact hdropped a c b ha hfc
    | some d =>
        rcases List.mem_append.mp hc with hc | hc
        · rw [hkey, hkept c d hfc]
          exact hbefore d (hfront ▸ List.mem_filterMap.mpr ⟨c, hc, hfc⟩)
        · exact absurd (hgap c hc) (by simp [hfc])
  · intro c hc
    cases hfc : f c with
    | none => exact (hdropped a c b ha hfc).le
    | some d =>
        rw [hkey, hkept c d hfc]
        exact hafter d (hback ▸ List.mem_filterMap.mpr ⟨c, hc, hfc⟩)

end FirstLeast

/-! ## Ranks and best aliases -/

/-- The place of a rank in the order of ranks. -/
def Rank.key (r : Rank) : WithTop ℕ ×ₗ ℤ :=
  toLex (r.position.elim ⊤ WithTop.some, r.surplus)

theorem Rank.key_lt_of_position_eq_none {r s : Rank} (hr : r.position ≠ none)
    (hs : s.position = none) : r.key < s.key := by
  obtain ⟨p, hp⟩ := Option.ne_none_iff_exists'.mp hr
  rw [Rank.key, Rank.key, Prod.Lex.toLex_lt_toLex, hp, hs]
  exact Or.inl (WithTop.coe_lt_top p)

/-- Some alias of the group holds the query. -/
def GroupHolds (query : Text) (aliases : AliasGroup) : Prop :=
  ∃ spelling ∈ aliases, (rank query spelling).position ≠ none

/-- Some alias of the group starts with the query. -/
def GroupStarts (query : Text) (aliases : AliasGroup) : Prop :=
  ∃ spelling ∈ aliases, (rank query spelling).position = some 0

/-- The alias holds the query, and it is the first alias of its group that has
the least rank. -/
structure IsBest (query : Text) (aliases : AliasGroup) (spelling : Text) : Prop where
  holds : (rank query spelling).position ≠ none
  firstLeast : IsFirstLeast (fun a => (rank query a).key) aliases spelling

section Groups

variable {query spelling : Text} {aliases : AliasGroup} {command group : ℕ}
  {groups : List AliasGroup} {m n : Match}

theorem IsBest.position_eq_zero (h : IsBest query aliases spelling)
    (hstarts : GroupStarts query aliases) :
    (rank query spelling).position = some 0 := by
  obtain ⟨other, hother, hzero⟩ := hstarts
  obtain ⟨p, hp⟩ := Option.ne_none_iff_exists'.mp h.holds
  have hle := h.firstLeast.key_le hother
  simp only [Rank.key, hp, hzero, Prod.Lex.toLex_le_toLex] at hle
  rcases hle with hlt | ⟨heq, -⟩
  · exact absurd hlt (by simp)
  · rw [hp]
    simpa using heq

namespace Match

/-- The rank of the alias that stands for the group. -/
def rank (m : Match) : Rank := ⟨some m.position, m.surplus⟩

/-- Where a match comes in the order of commands and groups. -/
def place (m : Match) : ℕ ×ₗ ℕ := toLex (m.command, m.group)

theorem better_iff {a b : Match} : a.better b = true ↔ a.rank.key < b.rank.key := by
  simp [better, rank, Rank.key, Prod.Lex.toLex_lt_toLex]

theorem preferred_eq (a b : Match) :
    a.preferred b = if b.rank.key < a.rank.key then b else a := by
  simp only [preferred, better_iff]

theorem bucket_eq_startsWith_iff :
    m.bucket = .startsWith ↔ m.position = 0 := by
  simp [bucket]

/-- The match belongs to a group and stands for its best alias. -/
structure StandsFor (query : Text) (command group : ℕ) (aliases : AliasGroup)
    (m : Match) : Prop where
  command_eq : m.command = command
  group_eq : m.group = group
  aliases_eq : m.aliases = aliases
  rank_eq : AliasConsole.rank query m.best = m.rank
  isBest : IsBest query aliases m.best

theorem StandsFor.unique (hm : m.StandsFor query command group aliases)
    (hn : n.StandsFor query command group aliases) : m = n := by
  have hbest : m.best = n.best := hm.isBest.firstLeast.unique hn.isBest.firstLeast
  have hrank : m.rank = n.rank := by rw [← hm.rank_eq, ← hn.rank_eq, hbest]
  have hplace : m.command = n.command ∧ m.group = n.group ∧ m.aliases = n.aliases :=
    ⟨hm.command_eq.trans hn.command_eq.symm, hm.group_eq.trans hn.group_eq.symm,
      hm.aliases_eq.trans hn.aliases_eq.symm⟩
  cases m
  cases n
  simp_all [rank]

theorem StandsFor.bucket_eq_startsWith_iff (h : m.StandsFor query command group aliases) :
    m.bucket = .startsWith ↔ GroupStarts query aliases := by
  rw [Match.bucket_eq_startsWith_iff]
  constructor
  · intro hzero
    exact ⟨m.best, h.isBest.firstLeast.mem, by rw [h.rank_eq, rank, hzero]⟩
  · intro hstarts
    have hzero := h.isBest.position_eq_zero hstarts
    rw [h.rank_eq] at hzero
    exact Option.some.inj hzero

end Match

/-! ## The matches of groups -/

theorem aliasMatch_eq_some_iff :
    ((rank query spelling).position.map fun position =>
        (⟨command, group, aliases, spelling, position,
          (rank query spelling).surplus⟩ : Match)) = some m ↔
      m.command = command ∧ m.group = group ∧ m.aliases = aliases ∧
        m.best = spelling ∧ rank query spelling = m.rank := by
  obtain ⟨position, surplus⟩ := rank query spelling
  obtain ⟨c, g, as, best, p, d⟩ := m
  simp only [Match.rank, Option.map_eq_some_iff, Match.mk.injEq, Rank.mk.injEq]
  constructor
  · rintro ⟨q, rfl, rfl, rfl, rfl, rfl, rfl, rfl⟩
    simp
  · rintro ⟨rfl, rfl, rfl, rfl, rfl, rfl⟩
    exact ⟨p, by simp⟩

theorem exists_bestMatch? (command group : ℕ) (h : GroupHolds query aliases) :
    ∃ m, bestMatch? query command group aliases = some m := by
  obtain ⟨spelling, hspelling, hposition⟩ := h
  obtain ⟨p, hp⟩ := Option.ne_none_iff_exists'.mp hposition
  have hmem : (⟨command, group, aliases, spelling, p, (rank query spelling).surplus⟩ : Match) ∈
      aliasMatches query command group aliases :=
    List.mem_filterMap.mpr ⟨spelling, hspelling, by simp [hp]⟩
  rw [bestMatch?]
  cases hmatches : aliasMatches query command group aliases with
  | nil => simp [hmatches] at hmem
  | cons first rest => exact ⟨_, rfl⟩

theorem standsFor_of_bestMatch? (h : bestMatch? query command group aliases = some m) :
    m.StandsFor query command group aliases := by
  rw [bestMatch?] at h
  cases hmatches : aliasMatches query command group aliases with
  | nil => simp [hmatches] at h
  | cons first rest =>
      rw [hmatches] at h
      have hleast := isFirstLeast_foldl Match.preferred_eq first rest
      rw [Option.some.inj h, ← hmatches, aliasMatches] at hleast
      obtain ⟨spelling, hsome, hbest⟩ := hleast.of_filterMap
        (fun a => (rank query a).key)
        (fun a c ha => by rw [(aliasMatch_eq_some_iff.mp ha).2.2.2.2])
        (fun a c d ha hc => by
          have hfound := (aliasMatch_eq_some_iff.mp ha).2.2.2.2
          exact Rank.key_lt_of_position_eq_none (by simp [hfound, Match.rank])
            (by simpa using hc))
      obtain ⟨hcommand, hgroup, haliases, rfl, hrank⟩ := aliasMatch_eq_some_iff.mp hsome
      exact ⟨hcommand, hgroup, haliases, hrank, by simp [hrank, Match.rank], hbest⟩

/-- `bestMatch?` finds exactly the match that stands for a group. -/
theorem bestMatch?_eq_some_iff :
    bestMatch? query command group aliases = some m ↔
      m.StandsFor query command group aliases := by
  refine ⟨standsFor_of_bestMatch?, fun h => ?_⟩
  obtain ⟨n, hn⟩ := exists_bestMatch? command group
    ⟨m.best, h.isBest.firstLeast.mem, h.isBest.holds⟩
  rw [hn, (standsFor_of_bestMatch? hn).unique h]

theorem GroupHolds.exists_isBest (h : GroupHolds query aliases) :
    ∃ spelling, IsBest query aliases spelling := by
  obtain ⟨m, hm⟩ := exists_bestMatch? 0 0 h
  exact ⟨m.best, (standsFor_of_bestMatch? hm).isBest⟩

theorem mem_groupMatches_iff :
    m ∈ groupMatches query command groups ↔
      ∃ aliases, groups[m.group]? = some aliases ∧
        m.StandsFor query command m.group aliases := by
  simp only [groupMatches, List.mem_filterMap, bestMatch?_eq_some_iff, Prod.exists,
    List.mk_mem_zipIdx_iff_getElem?]
  constructor
  · rintro ⟨aliases, group, hgroup, hm⟩
    rw [hm.group_eq]
    exact ⟨aliases, hgroup, hm⟩
  · rintro ⟨aliases, hgroup, hm⟩
    exact ⟨aliases, m.group, hgroup, hm⟩

theorem pairwise_zipIdx {α : Type*} (items : List α) :
    items.zipIdx.Pairwise fun a b => a.2 < b.2 := by
  rw [← List.pairwise_map, List.zipIdx_map_snd]
  exact List.pairwise_lt_range'

theorem pairwise_groupMatches (query : Text) (command : ℕ) (groups : List AliasGroup) :
    (groupMatches query command groups).Pairwise fun m n => m.place < n.place := by
  refine List.Pairwise.filterMap _ ?_ (pairwise_zipIdx groups)
  intro a b hab m hm n hn
  have hm := standsFor_of_bestMatch? hm
  have hn := standsFor_of_bestMatch? hn
  rw [Match.place, Match.place, Prod.Lex.toLex_lt_toLex, hm.command_eq, hn.command_eq,
    hm.group_eq, hn.group_eq]
  exact Or.inr ⟨rfl, hab⟩

end Groups

end AliasConsole
