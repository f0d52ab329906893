import AliasConsole.Proofs.Completion.BestMatch
import AliasConsole.Proofs.Evaluation

/-!
# Which commands survive narrowing

Completion looks at the groups that the living commands offer at a position
and keeps the commands of one bucket.  This module says which commands are
alive at a position without running anything: alive are at first all commands,
and then those that own a match in the bucket selected at the position before.
The matches that narrowing finds are exactly the matches in this sense, each
once and in the order of commands and groups.
-/

namespace AliasConsole

/-- What the completion of a line goes by: the commands, whether only fixed
positions count, the tokens, and the groups that are seen. -/
structure Scan (W : Type) where
  registry : Registry W
  limited : Bool
  tokens : List Text
  groups : GroupTable

theorem Bucket.eq_of_startsWith_iff {a b : Bucket}
    (h : a = .startsWith ↔ b = .startsWith) : a = b := by
  cases a <;> cases b <;> simp_all

namespace Narrowing

variable {n : Narrowing}

theorem mem_inBucket_iff {bucket : Bucket} {m : Match} :
    m ∈ n.inBucket bucket ↔ m ∈ n.found ∧ m.bucket = bucket := by
  simp [inBucket]

theorem selected_of_exists (h : ∃ m ∈ n.found, m.bucket = .startsWith) :
    n.selected = n.inBucket .startsWith := by
  obtain ⟨m, hm⟩ := h
  have hmem : m ∈ n.inBucket .startsWith := mem_inBucket_iff.mpr hm
  rw [selected]
  cases hstarts : n.inBucket .startsWith with
  | nil => simp [hstarts] at hmem
  | cons first rest => rfl

theorem selected_of_not_exists (h : ¬∃ m ∈ n.found, m.bucket = .startsWith) :
    n.selected = n.inBucket .contains := by
  have hnil : n.inBucket .startsWith = [] :=
    List.eq_nil_iff_forall_not_mem.mpr fun m hm => h ⟨m, mem_inBucket_iff.mp hm⟩
  rw [selected, hnil]

theorem selected_sublist (n : Narrowing) : n.selected.Sublist n.found := by
  by_cases hpreferred : ∃ m ∈ n.found, m.bucket = .startsWith
  · rw [selected_of_exists hpreferred]
    exact List.filter_sublist
  · rw [selected_of_not_exists hpreferred]
    exact List.filter_sublist

end Narrowing

namespace Scan

variable {W : Type}

/-- Completion looks at the position of the command. -/
def Covers (s : Scan W) (position command : ℕ) : Prop :=
  ∃ c, s.registry.commands[command]? = some c ∧ position < c.reach s.limited

/-- A group of a living command that covers the position holds the token there;
the bucket tells whether it starts with the token. -/
def MatchAmong (s : Scan W) (alive : ℕ → Prop) (position command group : ℕ)
    (bucket : Bucket) : Prop :=
  alive command ∧ s.Covers position command ∧
    ∃ token aliases, s.tokens[position]? = some token ∧
      (s.groups position command)[group]? = some aliases ∧ aliases ≠ [] ∧
      GroupHolds (Text.lower token) aliases ∧
      (bucket = .startsWith ↔ GroupStarts (Text.lower token) aliases)

/-- The preferred bucket is selected if it has a match, the second one if not. -/
def SelectedAmong (s : Scan W) (alive : ℕ → Prop) (position : ℕ) : Bucket → Prop
  | .startsWith => ∃ command group, s.MatchAmong alive position command group .startsWith
  | .contains => ¬∃ command group, s.MatchAmong alive position command group .startsWith

/-- The command owns a match in the bucket that is selected. -/
def KeptAmong (s : Scan W) (alive : ℕ → Prop) (position command : ℕ) : Prop :=
  ∃ bucket group, s.SelectedAmong alive position bucket ∧
    s.MatchAmong alive position command group bucket

/-- The command is alive at the position: at first every command is, and later
those that own a match in the bucket selected at the position before. -/
def Alive (s : Scan W) : ℕ → ℕ → Prop
  | 0 => fun command => command < s.registry.commands.length
  | position + 1 => s.KeptAmong (s.Alive position) position

/-- A group matches the token at the position, in the bucket. -/
def IsMatch (s : Scan W) (position : ℕ) : ℕ → ℕ → Bucket → Prop :=
  s.MatchAmong (s.Alive position) position

/-- The bucket is selected at the position. -/
def IsSelected (s : Scan W) (position : ℕ) : Bucket → Prop :=
  s.SelectedAmong (s.Alive position) position

theorem alive_zero (s : Scan W) (command : ℕ) :
    s.Alive 0 command ↔ command < s.registry.commands.length :=
  Iff.rfl

theorem alive_succ (s : Scan W) (position command : ℕ) :
    s.Alive (position + 1) command ↔
      ∃ bucket group, s.IsSelected position bucket ∧
        s.IsMatch position command group bucket :=
  Iff.rfl

theorem IsMatch.position_lt {s : Scan W} {position command group : ℕ} {bucket : Bucket}
    (h : s.IsMatch position command group bucket) : position < s.tokens.length := by
  obtain ⟨-, -, token, aliases, htoken, -⟩ := h
  exact (List.getElem?_eq_some_iff.mp htoken).1

theorem Alive.of_succ {s : Scan W} {position command : ℕ}
    (h : s.Alive (position + 1) command) : s.Alive position command := by
  obtain ⟨bucket, group, -, hmatch⟩ := h
  exact hmatch.1

theorem Alive.of_le {s : Scan W} {position later command : ℕ} (hle : position ≤ later)
    (h : s.Alive later command) : s.Alive position command := by
  induction later, hle using Nat.le_induction with
  | base => exact h
  | succ later _ ih => exact ih h.of_succ

/-! ## The narrowings of a scan -/

/-- The groups of the commands that cover the position, in their order. -/
def shown (s : Scan W) (position : ℕ) (alive : List (Entry W)) :
    List (ℕ × List AliasGroup) :=
  (alive.filter fun e => position < e.1.reach s.limited).map fun e =>
    (e.2, s.groups position e.2)

/-- The narrowing of a position with the commands that are alive there. -/
def narrowingOf (s : Scan W) (position : ℕ) (alive : List (Entry W)) : Narrowing :=
  Narrowing.of (s.tokens.getD position []) (s.shown position alive)

/-- The commands that are left at the position. -/
def survivors (s : Scan W) : ℕ → List (Entry W)
  | 0 => s.registry.commands.zipIdx
  | position + 1 => (s.survivors position).filter fun e =>
      (s.narrowingOf position (s.survivors position)).keeps e.2

/-- The narrowing of a position. -/
def narrowingAt (s : Scan W) (position : ℕ) : Narrowing :=
  s.narrowingOf position (s.survivors position)

section Found

variable {s : Scan W} {position : ℕ} {token : Text} {alive : List (Entry W)}

theorem narrowingOf_eq (htoken : s.tokens[position]? = some token) (alive : List (Entry W)) :
    s.narrowingOf position alive = Narrowing.of token (s.shown position alive) := by
  rw [narrowingOf, List.getD_eq_getElem?_getD, htoken, Option.getD_some]

theorem mem_found_iff (htoken : s.tokens[position]? = some token) {m : Match} :
    m ∈ (s.narrowingOf position alive).found ↔
      ∃ c, (c, m.command) ∈ alive ∧ position < c.reach s.limited ∧
        ∃ aliases, (s.groups position m.command)[m.group]? = some aliases ∧
          m.StandsFor (Text.lower token) m.command m.group aliases := by
  simp only [narrowingOf, Narrowing.of, shown, List.getD_eq_getElem?_getD, htoken,
    Option.getD_some, List.flatMap_map, List.mem_flatMap, List.mem_filter,
    decide_eq_true_eq, mem_groupMatches_iff, Prod.exists]
  constructor
  · rintro ⟨c, index, ⟨hmem, hreach⟩, aliases, hgroup, hm⟩
    obtain rfl := hm.command_eq
    exact ⟨c, hmem, hreach, aliases, hgroup, hm⟩
  · rintro ⟨c, hmem, hreach, aliases, hgroup, hm⟩
    exact ⟨c, m.command, ⟨hmem, hreach⟩, aliases, hgroup, hm⟩

theorem pairwise_found (halive : alive.Pairwise fun a b => a.2 < b.2) :
    (s.narrowingOf position alive).found.Pairwise fun m n => m.place < n.place := by
  simp only [narrowingOf, Narrowing.of, shown, List.flatMap_map]
  rw [List.pairwise_flatMap]
  refine ⟨fun e _ => pairwise_groupMatches _ _ _, (halive.filter _).imp ?_⟩
  intro a b hab m hm n hn
  obtain ⟨_, _, hm⟩ := mem_groupMatches_iff.mp hm
  obtain ⟨_, _, hn⟩ := mem_groupMatches_iff.mp hn
  rw [Match.place, Match.place, Prod.Lex.toLex_lt_toLex, hm.command_eq, hn.command_eq]
  exact Or.inl hab

/-- If the list holds the commands that are alive, the matches found are the
matches of the position. -/
theorem matchAmong_iff {P : ℕ → Prop}
    (halive : ∀ e : Entry W, e ∈ alive ↔ s.registry.commands[e.2]? = some e.1 ∧ P e.2)
    (hposition : position < s.tokens.length) {command group : ℕ} {bucket : Bucket} :
    s.MatchAmong P position command group bucket ↔
      ∃ m ∈ (s.narrowingOf position alive).found,
        m.command = command ∧ m.group = group ∧ m.bucket = bucket := by
  constructor
  · rintro ⟨hcommand, ⟨c, hc, hreach⟩, token, aliases, htoken, hgroup, -, hholds, hbucket⟩
    obtain ⟨m, hm⟩ := exists_bestMatch? command group hholds
    have hm := standsFor_of_bestMatch? hm
    obtain rfl := hm.command_eq
    obtain rfl := hm.group_eq
    refine ⟨m, (mem_found_iff htoken).mpr ?_, rfl, rfl, ?_⟩
    · exact ⟨c, (halive (c, m.command)).mpr ⟨hc, hcommand⟩, hreach, aliases, hgroup, hm⟩
    · exact Bucket.eq_of_startsWith_iff (hm.bucket_eq_startsWith_iff.trans hbucket.symm)
  · rintro ⟨m, hm, rfl, rfl, rfl⟩
    have htoken := List.getElem?_eq_getElem hposition
    obtain ⟨c, hmem, hreach, aliases, hgroup, hm⟩ := (mem_found_iff htoken).mp hm
    obtain ⟨hc, hcommand⟩ := (halive (c, m.command)).mp hmem
    have hbest := hm.isBest.firstLeast.mem
    exact ⟨hcommand, ⟨c, hc, hreach⟩, _, aliases, htoken, hgroup, List.ne_nil_of_mem hbest,
      ⟨m.best, hbest, hm.isBest.holds⟩, hm.bucket_eq_startsWith_iff⟩

theorem mem_selected_iff {P : ℕ → Prop}
    (halive : ∀ e : Entry W, e ∈ alive ↔ s.registry.commands[e.2]? = some e.1 ∧ P e.2)
    (hposition : position < s.tokens.length) {m : Match} :
    m ∈ (s.narrowingOf position alive).selected ↔
      m ∈ (s.narrowingOf position alive).found ∧ s.SelectedAmong P position m.bucket := by
  have hstarts : s.SelectedAmong P position .startsWith ↔
      ∃ n ∈ (s.narrowingOf position alive).found, n.bucket = .startsWith := by
    simp only [SelectedAmong, matchAmong_iff halive hposition]
    constructor
    · rintro ⟨_, _, n, hn, -, -, hbucket⟩
      exact ⟨n, hn, hbucket⟩
    · rintro ⟨n, hn, hbucket⟩
      exact ⟨n.command, n.group, n, hn, rfl, rfl, hbucket⟩
  have hcontains : s.SelectedAmong P position .contains ↔
      ¬s.SelectedAmong P position .startsWith := Iff.rfl
  by_cases hpreferred : ∃ n ∈ (s.narrowingOf position alive).found, n.bucket = .startsWith
  · rw [Narrowing.selected_of_exists hpreferred, Narrowing.mem_inBucket_iff]
    cases hbucket : m.bucket with
    | startsWith => simp [hstarts, hpreferred]
    | contains => simp [hcontains, hstarts, hpreferred]
  · rw [Narrowing.selected_of_not_exists hpreferred, Narrowing.mem_inBucket_iff]
    cases hbucket : m.bucket with
    | startsWith => simp [hstarts, hpreferred]
    | contains => simp [hcontains, hstarts, hpreferred]

theorem keeps_iff {P : ℕ → Prop}
    (halive : ∀ e : Entry W, e ∈ alive ↔ s.registry.commands[e.2]? = some e.1 ∧ P e.2)
    (hposition : position < s.tokens.length) {command : ℕ} :
    (s.narrowingOf position alive).keeps command = true ↔ s.KeptAmong P position command := by
  simp only [KeptAmong, Narrowing.keeps, List.any_eq_true, beq_iff_eq,
    mem_selected_iff halive hposition, matchAmong_iff halive hposition]
  constructor
  · rintro ⟨m, ⟨hm, hselected⟩, rfl⟩
    exact ⟨m.bucket, m.group, hselected, m, hm, rfl, rfl, rfl⟩
  · rintro ⟨_, _, hselected, m, hm, rfl, rfl, rfl⟩
    exact ⟨m, ⟨hm, hselected⟩, rfl⟩

end Found

/-! ## The narrowings of the living commands -/

theorem survivors_sublist (s : Scan W) (position : ℕ) :
    (s.survivors position).Sublist s.registry.commands.zipIdx := by
  induction position with
  | zero => exact List.Sublist.refl _
  | succ position ih => exact List.filter_sublist.trans ih

theorem pairwise_survivors (s : Scan W) (position : ℕ) :
    (s.survivors position).Pairwise fun a b => a.2 < b.2 :=
  (pairwise_zipIdx s.registry.commands).sublist (s.survivors_sublist position)

theorem mem_survivors_iff {s : Scan W} {position : ℕ}
    (hposition : position ≤ s.tokens.length) (e : Entry W) :
    e ∈ s.survivors position ↔
      s.registry.commands[e.2]? = some e.1 ∧ s.Alive position e.2 := by
  induction position generalizing e with
  | zero =>
      rw [survivors, List.mem_zipIdx_iff_getElem?, alive_zero]
      constructor
      · intro h
        exact ⟨h, (List.getElem?_eq_some_iff.mp h).1⟩
      · exact And.left
  | succ position ih =>
      have hlt : position < s.tokens.length := hposition
      have halive := ih hlt.le
      rw [survivors, List.mem_filter, keeps_iff halive hlt, halive]
      constructor
      · rintro ⟨⟨hc, -⟩, hkept⟩
        exact ⟨hc, hkept⟩
      · rintro ⟨hc, hkept⟩
        exact ⟨⟨hc, Alive.of_succ hkept⟩, hkept⟩

/-- Whether a command is alive can be computed by narrowing. -/
theorem alive_iff_mem_survivors {s : Scan W} {position command : ℕ}
    (hposition : position ≤ s.tokens.length) :
    s.Alive position command ↔ command ∈ (s.survivors position).map Prod.snd := by
  rw [List.mem_map]
  constructor
  · intro halive
    have hlt : command < s.registry.commands.length :=
      (alive_zero s command).mp (halive.of_le (Nat.zero_le position))
    exact ⟨(s.registry.commands[command], command),
      (mem_survivors_iff hposition _).mpr ⟨List.getElem?_eq_getElem hlt, halive⟩, rfl⟩
  · rintro ⟨e, he, rfl⟩
    exact ((mem_survivors_iff hposition e).mp he).2

section At

variable {s : Scan W} {position : ℕ}

theorem isMatch_iff (hposition : position < s.tokens.length) {command group : ℕ}
    {bucket : Bucket} :
    s.IsMatch position command group bucket ↔
      ∃ m ∈ (s.narrowingAt position).found,
        m.command = command ∧ m.group = group ∧ m.bucket = bucket :=
  matchAmong_iff (mem_survivors_iff hposition.le) hposition

theorem mem_selected_narrowingAt_iff (hposition : position < s.tokens.length) {m : Match} :
    m ∈ (s.narrowingAt position).selected ↔
      m ∈ (s.narrowingAt position).found ∧ s.IsSelected position m.bucket :=
  mem_selected_iff (mem_survivors_iff hposition.le) hposition

theorem pairwise_found_narrowingAt (s : Scan W) (position : ℕ) :
    (s.narrowingAt position).found.Pairwise fun m n => m.place < n.place :=
  pairwise_found (s.pairwise_survivors position)

theorem standsFor_of_mem_found {token : Text} (htoken : s.tokens[position]? = some token)
    {m : Match} (hm : m ∈ (s.narrowingAt position).found) :
    ∃ aliases, (s.groups position m.command)[m.group]? = some aliases ∧
      m.StandsFor (Text.lower token) m.command m.group aliases := by
  obtain ⟨c, -, -, aliases, hgroup, hstands⟩ := (mem_found_iff htoken).mp hm
  exact ⟨aliases, hgroup, hstands⟩

theorem token_narrowingAt {token : Text} (htoken : s.tokens[position]? = some token) :
    (s.narrowingAt position).token = token := by
  rw [narrowingAt, narrowingOf_eq htoken, Narrowing.of]

end At

end Scan

end AliasConsole
