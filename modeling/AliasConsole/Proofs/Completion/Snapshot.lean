import AliasConsole.Completion.Basic
import AliasConsole.Proofs.Completion.Survival

/-!
# The groups that one call sees

Live candidates may give other groups at every evaluation.  A call evaluates
the living commands that cover a position in their order, position by
position, and hands the world on from one evaluation to the next.  A scan is a
snapshot of the call if its groups are those very answers.  Then narrowing
gives the narrowings of the scan.
-/

namespace AliasConsole

variable {W : Type}

/-- Evaluating the living commands that cover the position gives the groups and
passes through the worlds, and the other commands leave the world as it is;
`worlds command` is the world when evaluation comes to the command. -/
structure Registry.IsEvaluation (r : Registry W) (limited : Bool) (position : ℕ)
    (alive : ℕ → Prop) (worlds : ℕ → W) (groups : ℕ → List AliasGroup) : Prop where
  evaluated : ∀ (command : ℕ) (c : Command W), r.commands[command]? = some c →
    alive command → position < c.reach limited →
      c.groupsAt position (worlds command) = .ok (groups command) (worlds (command + 1))
  skipped : ∀ command < r.commands.length,
    ¬(alive command ∧ ∃ c, r.commands[command]? = some c ∧ position < c.reach limited) →
      worlds (command + 1) = worlds command

/-- The list has the living commands from an index on, in their order. -/
structure Registry.ListsFrom (r : Registry W) (alive : ℕ → Prop) (first : ℕ)
    (entries : List (Entry W)) : Prop where
  ordered : entries.Pairwise fun a b => a.2 < b.2
  mem_iff : ∀ e : Entry W,
    e ∈ entries ↔ r.commands[e.2]? = some e.1 ∧ alive e.2 ∧ first ≤ e.2

theorem Registry.world_eq_of_skipped {r : Registry W} {limited : Bool} {position : ℕ}
    {alive : ℕ → Prop} {worlds : ℕ → W}
    (hskipped : ∀ command < r.commands.length,
      ¬(alive command ∧ ∃ c, r.commands[command]? = some c ∧ position < c.reach limited) →
        worlds (command + 1) = worlds command)
    {first last : ℕ} (hle : first ≤ last) (hlast : last ≤ r.commands.length)
    (hdead : ∀ command, first ≤ command → command < last → ¬alive command) :
    worlds last = worlds first := by
  induction last, hle using Nat.le_induction with
  | base => rfl
  | succ last hle ih =>
      rw [hskipped last hlast fun h => hdead last hle (Nat.lt_succ_self last) h.1]
      exact ih (Nat.le_of_lt hlast) fun command hfirst hlt =>
        hdead command hfirst (Nat.lt_succ_of_lt hlt)

namespace Registry.ListsFrom

variable {r : Registry W} {alive : ℕ → Prop} {first command : ℕ} {c : Command W}
  {rest : List (Entry W)}

theorem head (h : r.ListsFrom alive first ((c, command) :: rest)) :
    r.commands[command]? = some c ∧ alive command := by
  obtain ⟨hc, halive, -⟩ := (h.mem_iff (c, command)).mp (by simp)
  exact ⟨hc, halive⟩

theorem tail (h : r.ListsFrom alive first ((c, command) :: rest)) :
    r.ListsFrom alive (command + 1) rest := by
  obtain ⟨hhead, hrest⟩ := List.pairwise_cons.mp h.ordered
  obtain ⟨-, -, hle⟩ := (h.mem_iff (c, command)).mp (by simp)
  refine ⟨hrest, fun e => ⟨fun he => ?_, ?_⟩⟩
  · obtain ⟨hd, hlive, -⟩ := (h.mem_iff e).mp (List.mem_cons_of_mem _ he)
    exact ⟨hd, hlive, hhead e he⟩
  · rintro ⟨hd, hlive, hgt⟩
    have hfirst : first ≤ e.2 := Nat.le_of_lt (lt_of_le_of_lt hle hgt)
    rcases List.mem_cons.mp ((h.mem_iff e).mpr ⟨hd, hlive, hfirst⟩) with rfl | he
    · exact absurd hgt (Nat.not_succ_le_self _)
    · exact he

variable {limited : Bool} {position : ℕ} {worlds : ℕ → W}
  (hskipped : ∀ command < r.commands.length,
    ¬(alive command ∧ ∃ c, r.commands[command]? = some c ∧ position < c.reach limited) →
      worlds (command + 1) = worlds command)

include hskipped

theorem world_eq_of_nil (h : r.ListsFrom alive first []) (hfirst : first ≤ r.commands.length) :
    worlds r.commands.length = worlds first := by
  refine world_eq_of_skipped hskipped hfirst le_rfl fun command hle hlt halive => ?_
  exact List.not_mem_nil
    ((h.mem_iff (r.commands[command], command)).mpr ⟨List.getElem?_eq_getElem hlt, halive, hle⟩)

theorem world_eq_of_cons (h : r.ListsFrom alive first ((c, command) :: rest))
    (hlt : command < r.commands.length) : worlds command = worlds first := by
  obtain ⟨-, -, hle⟩ := (h.mem_iff (c, command)).mp (by simp)
  refine world_eq_of_skipped hskipped hle hlt.le fun other hother hbefore halive => ?_
  have hentry : ((r.commands[other], other) : Entry W) ∈ (c, command) :: rest :=
    (h.mem_iff _).mpr ⟨List.getElem?_eq_getElem (hbefore.trans hlt), halive, hother⟩
  rcases List.mem_cons.mp hentry with heq | hin
  · exact absurd (congrArg Prod.snd heq) (Nat.ne_of_lt hbefore)
  · exact absurd ((List.pairwise_cons.mp h.ordered).1 _ hin) (Nat.lt_asymm hbefore)

end Registry.ListsFrom

/-- Evaluating the living commands from an index on gives their groups in the
scan and passes through the worlds of the evaluation. -/
theorem Registry.IsEvaluation.evaluateAt_eq {s : Scan W} {position : ℕ} {worlds : ℕ → W}
    (h : s.registry.IsEvaluation s.limited position (s.Alive position) worlds
      (s.groups position))
    {alive : List (Entry W)} {first : ℕ} (hfirst : first ≤ s.registry.commands.length)
    (hlists : s.registry.ListsFrom (s.Alive position) first alive) :
    evaluateAt s.limited position alive (worlds first) =
      .ok (s.shown position alive) (worlds s.registry.commands.length) := by
  obtain ⟨hevaluated, hskipped⟩ := h
  induction alive generalizing first with
  | nil =>
      rw [hlists.world_eq_of_nil hskipped hfirst]
      rfl
  | cons e rest ih =>
      obtain ⟨c, command⟩ := e
      obtain ⟨hc, halive⟩ := hlists.head
      have hlt : command < s.registry.commands.length :=
        (List.getElem?_eq_some_iff.mp hc).1
      have htail := ih hlt hlists.tail
      rw [← hlists.world_eq_of_cons hskipped hlt, evaluateAt]
      by_cases hreach : position < c.reach s.limited
      · rw [if_pos hreach, bind_of_ok (hevaluated command c hc halive hreach),
          bind_of_ok htail]
        simp [Scan.shown, hreach]
        rfl
      · have hskip : ¬(s.Alive position command ∧
            ∃ d, s.registry.commands[command]? = some d ∧ position < d.reach s.limited) := by
          rintro ⟨-, d, hd, hcovers⟩
          obtain rfl : c = d := Option.some.inj (hc.symm.trans hd)
          exact hreach hcovers
        rw [if_neg hreach, ← hskipped command hlt hskip, htail]
        simp [Scan.shown, hreach]

namespace Scan

/-- The groups of the scan are what the call sees that starts in the world `w`;
`worlds position command` is the world when the call comes to a command. -/
structure IsSnapshot (s : Scan W) (w : W) (worlds : ℕ → ℕ → W) : Prop where
  start : worlds 0 0 = w
  next : ∀ position < s.tokens.length,
    worlds (position + 1) 0 = worlds position s.registry.commands.length
  evaluation : ∀ position < s.tokens.length, s.registry.IsEvaluation s.limited position
    (s.Alive position) (worlds position) (s.groups position)

/-- Every alias that is seen has the property. -/
def SeesOnly (s : Scan W) (P : Text → Prop) : Prop :=
  ∀ position < s.tokens.length, ∀ command, s.Alive position command →
    s.Covers position command → ∀ aliases ∈ s.groups position command,
      ∀ spelling ∈ aliases, P spelling

/-- What a table shows is what the candidates of the registry can give. -/
theorem seesOnly_of_shows [Nonempty W] {s : Scan W} (hshows : s.registry.Shows s.groups)
    (hformed : s.registry.WellFormed) {P : Text → Prop} (hP : s.registry.AliasesSatisfy P) :
    s.SeesOnly P := by
  rintro position - command - ⟨c, hc, hreach⟩ aliases haliases spelling hspelling
  have hlt := lt_of_lt_of_le hreach (hformed.reach_le (List.mem_of_getElem? hc) s.limited)
  exact hshows.alias_satisfies hP hc hlt ⟨aliases, haliases, hspelling⟩

/-- The scan of a request for completion, given the groups that are seen. -/
abbrev ofLine (r : Registry W) (options : CompletionOptions) (line : Text)
    (table : GroupTable) : Scan W :=
  ⟨r, options.limitToFixed, tokenize line, table⟩

/-- The narrowings of all tokens. -/
def narrowings (s : Scan W) : List Narrowing :=
  (List.range s.tokens.length).map s.narrowingAt

theorem getElem?_narrowings {s : Scan W} {position : ℕ} {n : Narrowing} :
    s.narrowings[position]? = some n ↔
      position < s.tokens.length ∧ s.narrowingAt position = n := by
  rw [narrowings, List.getElem?_map]
  constructor
  · intro h
    obtain ⟨i, hi, rfl⟩ := Option.map_eq_some_iff.mp h
    obtain ⟨hlt, rfl⟩ := List.getElem?_eq_some_iff.mp hi
    rw [List.length_range] at hlt
    simpa using hlt
  · rintro ⟨hlt, rfl⟩
    rw [List.getElem?_range hlt]
    rfl

theorem listsFrom_survivors {s : Scan W} {position : ℕ}
    (hposition : position ≤ s.tokens.length) :
    s.registry.ListsFrom (s.Alive position) 0 (s.survivors position) :=
  ⟨s.pairwise_survivors position, fun e => by simpa using mem_survivors_iff hposition e⟩

namespace IsSnapshot

variable {s : Scan W} {w : W} {worlds : ℕ → ℕ → W} {position : ℕ}

/-- From a position on, narrowing gives the narrowings of the scan. -/
theorem narrowFrom_eq (h : s.IsSnapshot w worlds) {rest : List Text}
    (hrest : s.tokens.drop position = rest) (hposition : position ≤ s.tokens.length) :
    narrowFrom s.limited position (s.survivors position) rest (worlds position 0) =
      .ok ((List.range' position rest.length).map s.narrowingAt)
        (worlds s.tokens.length 0) := by
  induction rest generalizing position with
  | nil =>
      have hlength : position = s.tokens.length :=
        le_antisymm hposition (List.drop_eq_nil_iff.mp hrest)
      rw [hlength]
      rfl
  | cons token rest ih =>
      obtain ⟨htoken, hmore⟩ := getElem?_of_drop_eq_cons hrest
      have hlt : position < s.tokens.length := (List.getElem?_eq_some_iff.mp htoken).1
      have heval := (h.evaluation position hlt).evaluateAt_eq (Nat.zero_le _)
        (listsFrom_survivors hlt.le)
      have hstep := ih hmore hlt
      rw [survivors, h.next position hlt] at hstep
      rw [narrowFrom, bind_of_ok heval]
      simp only [← narrowingOf_eq htoken]
      rw [bind_of_ok hstep]
      rfl

theorem narrow_eq (h : s.IsSnapshot w worlds) :
    narrow s.registry s.limited s.tokens w =
      .ok s.narrowings (worlds s.tokens.length 0) := by
  have hall : s.tokens.drop 0 = s.tokens := rfl
  have hfrom := h.narrowFrom_eq hall (Nat.zero_le _)
  rw [h.start, ← List.range_eq_range'] at hfrom
  exact hfrom

theorem seesOnly (h : s.IsSnapshot w worlds) (hformed : s.registry.WellFormed)
    {P : Text → Prop} (hP : s.registry.AliasesSatisfy P) : s.SeesOnly P := by
  rintro position hposition command halive ⟨c, hc, hreach⟩ aliases haliases spelling hspelling
  have hlt : position < c.slots.length :=
    lt_of_lt_of_le hreach (hformed.reach_le (List.mem_of_getElem? hc) s.limited)
  exact hP.groupsAt hc hlt ((h.evaluation position hposition).evaluated command c hc halive hreach)
    aliases haliases spelling hspelling

/-- Completion makes its answer of the narrowings of a snapshot of the call. -/
theorem autocomplete_eq {r : Registry W} {options : CompletionOptions} {line : Text}
    {table : GroupTable} (h : (ofLine r options line table).IsSnapshot w worlds) :
    autocomplete r options line w =
      .ok (.ofNarrowings options line (ofLine r options line table).narrowings)
        (worlds (tokenize line).length 0) := by
  rw [autocomplete, bind_of_ok h.narrow_eq]
  rfl

end IsSnapshot

end Scan

end AliasConsole
