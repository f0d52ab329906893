import AliasConsole.Proofs.Completion.Snapshot

/-!
# Calls that have a snapshot

A call for completion evaluates candidates until all tokens are done or an
evaluation fails.  An attempt goes along with the call as long as evaluations
succeed, and every call has one.  If no evaluation fails the attempt is a
snapshot.  So a call that cannot fail has a snapshot, and the calls that give a
completion are exactly those that have one.
-/

namespace AliasConsole

variable {W : Type}

/-- As in an evaluation, but a living command may fail to give its groups. -/
structure Registry.IsAttempt (r : Registry W) (limited : Bool) (position : ℕ)
    (alive : ℕ → Prop) (worlds : ℕ → W) (groups : ℕ → List AliasGroup) : Prop where
  evaluated : ∀ (command : ℕ) (c : Command W), r.commands[command]? = some c →
    alive command → position < c.reach limited →
      ∀ answer after, c.groupsAt position (worlds command) = .ok answer after →
        groups command = answer ∧ worlds (command + 1) = after
  skipped : ∀ command < r.commands.length,
    ¬(alive command ∧ ∃ c, r.commands[command]? = some c ∧ position < c.reach limited) →
      worlds (command + 1) = worlds command

/-- As in a snapshot, but evaluations may fail. -/
structure Scan.IsAttempt (s : Scan W) (w : W) (worlds : ℕ → ℕ → W) : Prop where
  start : worlds 0 0 = w
  next : ∀ position < s.tokens.length,
    worlds (position + 1) 0 = worlds position s.registry.commands.length
  attempt : ∀ position < s.tokens.length, s.registry.IsAttempt s.limited position
    (s.Alive position) (worlds position) (s.groups position)

/-- A step that is always possible can be taken again and again. -/
theorem exists_sequence {α : Type*} {P : ℕ → α → α → Prop} (first : α)
    (hstep : ∀ n before, ∃ after, P n before after) :
    ∃ sequence : ℕ → α, sequence 0 = first ∧ ∀ n, P n (sequence n) (sequence (n + 1)) := by
  choose next hnext using hstep
  exact ⟨Nat.rec first next, rfl, fun n => hnext n _⟩

namespace Registry

variable {r : Registry W} {limited : Bool} {position : ℕ} {alive : ℕ → Prop}
  {worlds : ℕ → W} {groups : ℕ → List AliasGroup}

theorem exists_isAttempt (r : Registry W) (limited : Bool) (position : ℕ)
    (alive : ℕ → Prop) (w : W) :
    ∃ worlds groups, worlds 0 = w ∧ r.IsAttempt limited position alive worlds groups := by
  have hstep : ∀ (command : ℕ) (before : W), ∃ (after : W) (groups : List AliasGroup),
      (∀ c : Command W, r.commands[command]? = some c → alive command →
        position < c.reach limited → ∀ answer next,
          c.groupsAt position before = .ok answer next → groups = answer ∧ after = next) ∧
      (¬(alive command ∧
          ∃ c, r.commands[command]? = some c ∧ position < c.reach limited) →
        after = before) := by
    intro command before
    by_cases hok : (alive command ∧
        ∃ c, r.commands[command]? = some c ∧ position < c.reach limited) ∧
        ∃ c answer next, r.commands[command]? = some c ∧
          c.groupsAt position before = .ok answer next
    · obtain ⟨hcovered, c, answer, next, hc, hanswer⟩ := hok
      refine ⟨next, answer, ?_, fun hnot => absurd hcovered hnot⟩
      intro d hd _ _ answer' next' hanswer'
      obtain rfl : c = d := Option.some.inj (hc.symm.trans hd)
      rw [hanswer, EStateM.Result.ok.injEq] at hanswer'
      exact hanswer'
    · refine ⟨before, [], ?_, fun _ => rfl⟩
      intro c hc halive hreach answer next hanswer
      exact absurd ⟨⟨halive, c, hc, hreach⟩, c, answer, next, hc, hanswer⟩ hok
  obtain ⟨worlds, hstart, hrun⟩ := exists_sequence w hstep
  choose groups hok hskip using hrun
  exact ⟨worlds, groups, hstart, hok, fun command _ => hskip command⟩

theorem IsAttempt.isEvaluation (h : r.IsAttempt limited position alive worlds groups)
    (hok : ∀ (command : ℕ) (c : Command W), r.commands[command]? = some c →
      alive command → position < c.reach limited →
        ∃ answer after, c.groupsAt position (worlds command) = .ok answer after) :
    r.IsEvaluation limited position alive worlds groups := by
  refine ⟨fun command c hc halive hreach => ?_, h.skipped⟩
  obtain ⟨answer, after, hanswer⟩ := hok command c hc halive hreach
  obtain ⟨rfl, rfl⟩ := h.evaluated command c hc halive hreach answer after hanswer
  exact hanswer

/-- If evaluating the living commands from an index on succeeds, each of them
that covers the position gives its groups. -/
theorem IsAttempt.evaluates_of_ok (h : r.IsAttempt limited position alive worlds groups)
    {entries : List (Entry W)} {first : ℕ} (hlists : r.ListsFrom alive first entries)
    {evaluated : List (ℕ × List AliasGroup)} {w : W}
    (hok : evaluateAt limited position entries (worlds first) = .ok evaluated w) :
    ∀ e ∈ entries, position < e.1.reach limited →
      ∃ answer after, e.1.groupsAt position (worlds e.2) = .ok answer after := by
  induction entries generalizing first evaluated w with
  | nil => simp
  | cons e rest ih =>
      obtain ⟨c, command⟩ := e
      obtain ⟨hc, halive⟩ := hlists.head
      have hlt : command < r.commands.length := (List.getElem?_eq_some_iff.mp hc).1
      rw [← hlists.world_eq_of_cons h.skipped hlt, evaluateAt] at hok
      by_cases hreach : position < c.reach limited
      · rw [if_pos hreach] at hok
        obtain ⟨answer, after, hanswer, hok⟩ := exists_ok_of_bind_ok hok
        obtain ⟨tail, _, htail, -⟩ := exists_ok_of_bind_ok hok
        obtain ⟨-, rfl⟩ := h.evaluated command c hc halive hreach answer after hanswer
        refine List.forall_mem_cons.mpr ⟨fun _ => ⟨answer, _, hanswer⟩, ?_⟩
        exact ih hlists.tail htail
      · have hskip : ¬(alive command ∧
            ∃ d, r.commands[command]? = some d ∧ position < d.reach limited) := by
          rintro ⟨-, d, hd, hcovers⟩
          obtain rfl : c = d := Option.some.inj (hc.symm.trans hd)
          exact hreach hcovers
        rw [if_neg hreach, ← h.skipped command hlt hskip] at hok
        exact List.forall_mem_cons.mpr ⟨fun hcovers => absurd hcovers hreach,
          ih hlists.tail hok⟩

end Registry

namespace Scan

theorem exists_isAttempt (r : Registry W) (limited : Bool) (tokens : List Text) (w : W) :
    ∃ (table : GroupTable) (worlds : ℕ → ℕ → W),
      (Scan.mk r limited tokens table).IsAttempt w worlds := by
  have hstep : ∀ (position : ℕ) (before : (ℕ → Prop) × W), ∃ (after : (ℕ → Prop) × W)
      (worlds : ℕ → W) (groups : ℕ → List AliasGroup), worlds 0 = before.2 ∧
        r.IsAttempt limited position before.1 worlds groups ∧
        after = ((Scan.mk r limited tokens fun _ => groups).KeptAmong before.1 position,
          worlds r.commands.length) := by
    intro position before
    obtain ⟨worlds, groups, hstart, hattempt⟩ :=
      r.exists_isAttempt limited position before.1 before.2
    exact ⟨_, worlds, groups, hstart, hattempt, rfl⟩
  obtain ⟨stages, hfirst, hrun⟩ :=
    exists_sequence (fun command => command < r.commands.length, w) hstep
  choose worlds table hstart hattempt hnext using hrun
  have halive : ∀ position,
      (Scan.mk r limited tokens table).Alive position = (stages position).1 := by
    intro position
    induction position with
    | zero =>
        rw [hfirst]
        rfl
    | succ position ih =>
        rw [hnext, Scan.Alive, ih]
        rfl
  refine ⟨table, worlds, ?_, ?_, ?_⟩
  · rw [hstart, hfirst]
  · intro position _
    rw [hstart, hnext]
  · intro position _
    rw [halive]
    exact hattempt position

variable {s : Scan W} {w : W} {worlds : ℕ → ℕ → W} {position : ℕ}

/-- If narrowing succeeds from a position on, every later position is evaluated
without a failure. -/
theorem IsAttempt.isEvaluation_of_narrowFrom (h : s.IsAttempt w worlds) {rest : List Text}
    (hrest : s.tokens.drop position = rest) {narrowings : List Narrowing} {last : W}
    (hok : narrowFrom s.limited position (s.survivors position) rest (worlds position 0) =
      .ok narrowings last) :
    ∀ later, position ≤ later → later < s.tokens.length →
      s.registry.IsEvaluation s.limited later (s.Alive later) (worlds later)
        (s.groups later) := by
  induction rest generalizing position narrowings last with
  | nil =>
      have hlength : s.tokens.length ≤ position := List.drop_eq_nil_iff.mp hrest
      intro later hle hlt
      omega
  | cons token rest ih =>
      obtain ⟨htoken, hmore⟩ := getElem?_of_drop_eq_cons hrest
      have hlt : position < s.tokens.length := (List.getElem?_eq_some_iff.mp htoken).1
      have hlists := listsFrom_survivors hlt.le
      rw [narrowFrom] at hok
      obtain ⟨evaluated, after, hevaluated, hok⟩ := exists_ok_of_bind_ok hok
      obtain ⟨narrowings', after', hnext, -⟩ := exists_ok_of_bind_ok hok
      have hevaluation := (h.attempt position hlt).isEvaluation fun command c hc halive hreach =>
        (h.attempt position hlt).evaluates_of_ok hlists hevaluated (c, command)
          ((hlists.mem_iff (c, command)).mpr ⟨hc, halive, Nat.zero_le _⟩) hreach
      have heq := hevaluation.evaluateAt_eq (Nat.zero_le _) hlists
      rw [hevaluated, EStateM.Result.ok.injEq] at heq
      obtain ⟨rfl, rfl⟩ := heq
      rw [← narrowingOf_eq htoken, ← h.next position hlt] at hnext
      intro later hle hlater
      rcases Nat.eq_or_lt_of_le hle with rfl | hgt
      · exact hevaluation
      · exact ih hmore hnext later hgt hlater

theorem IsAttempt.isSnapshot_of_ok (h : s.IsAttempt w worlds)
    {narrowings : List Narrowing} {last : W}
    (hok : narrow s.registry s.limited s.tokens w = .ok narrowings last) :
    s.IsSnapshot w worlds := by
  have hall : s.tokens.drop 0 = s.tokens := rfl
  rw [← h.start] at hok
  exact ⟨h.start, h.next, fun position =>
    h.isEvaluation_of_narrowFrom hall hok position (Nat.zero_le _)⟩

/-- A call gives a completion exactly if it has a snapshot. -/
theorem exists_autocomplete_iff {r : Registry W} {options : CompletionOptions} {line : Text} :
    (∃ completion last, autocomplete r options line w = .ok completion last) ↔
      ∃ table worlds, (ofLine r options line table).IsSnapshot w worlds := by
  constructor
  · rintro ⟨completion, last, hok⟩
    rw [autocomplete] at hok
    obtain ⟨narrowings, after, hnarrow, -⟩ := exists_ok_of_bind_ok hok
    obtain ⟨table, worlds, hattempt⟩ :=
      exists_isAttempt r options.limitToFixed (tokenize line) w
    exact ⟨table, worlds, hattempt.isSnapshot_of_ok hnarrow⟩
  · rintro ⟨table, worlds, hsnapshot⟩
    exact ⟨_, _, hsnapshot.autocomplete_eq⟩

end Scan

namespace Registry

variable {r : Registry W}

theorem NeverFails.evaluates (hfail : r.NeverFails) (hformed : r.WellFormed)
    {limited : Bool} {position command : ℕ} {c : Command W}
    (hc : r.commands[command]? = some c) (hreach : position < c.reach limited) (w : W) :
    ∃ answer after, c.groupsAt position w = .ok answer after :=
  hfail.groupsAt hc
    (lt_of_lt_of_le hreach (hformed.reach_le (List.mem_of_getElem? hc) limited)) w

theorem exists_isSnapshot (hfail : r.NeverFails) (hformed : r.WellFormed)
    (limited : Bool) (tokens : List Text) (w : W) :
    ∃ (table : GroupTable) (worlds : ℕ → ℕ → W),
      (Scan.mk r limited tokens table).IsSnapshot w worlds := by
  obtain ⟨table, worlds, h⟩ := Scan.exists_isAttempt r limited tokens w
  exact ⟨table, worlds, h.start, h.next, fun position hposition =>
    (h.attempt position hposition).isEvaluation fun _ _ hc _ hreach =>
      hfail.evaluates hformed hc hreach _⟩

/-- A table that every evaluation shows is a snapshot of every call. -/
theorem Shows.exists_isSnapshot {table : GroupTable} (hshows : r.Shows table)
    (hformed : r.WellFormed) (limited : Bool) (tokens : List Text) (w : W) :
    ∃ worlds : ℕ → ℕ → W, (Scan.mk r limited tokens table).IsSnapshot w worlds := by
  have hstep : ∀ (position : ℕ) (before : W), ∃ (after : W) (worlds : ℕ → W),
      worlds 0 = before ∧
        r.IsEvaluation limited position ((Scan.mk r limited tokens table).Alive position) worlds
          (table position) ∧
        after = worlds r.commands.length := by
    intro position before
    obtain ⟨worlds, groups, hstart, hattempt⟩ := r.exists_isAttempt limited position
      ((Scan.mk r limited tokens table).Alive position) before
    have hevaluation := hattempt.isEvaluation fun _ _ hc _ hreach =>
      hshows.steady.neverFails.evaluates hformed hc hreach _
    refine ⟨_, worlds, hstart, ⟨?_, hevaluation.skipped⟩, rfl⟩
    intro command c hc halive hreach
    have hlt : position < c.slots.length :=
      lt_of_lt_of_le hreach (hformed.reach_le (List.mem_of_getElem? hc) limited)
    have hok := hevaluation.evaluated command c hc halive hreach
    rw [hok, (hshows command c hc position hlt).eq_of_ok hok]
  obtain ⟨stages, hfirst, hrun⟩ := exists_sequence w hstep
  choose worlds hstart hevaluation hnext using hrun
  refine ⟨worlds, ?_, ?_, fun position _ => hevaluation position⟩
  · rw [hstart, hfirst]
  · intro position _
    rw [hstart, hnext]

theorem Shows.alwaysGives_narrow {table : GroupTable} (hshows : r.Shows table)
    (hformed : r.WellFormed) (limited : Bool) (tokens : List Text) :
    AlwaysGives (narrow r limited tokens) (Scan.mk r limited tokens table).narrowings := by
  intro w
  obtain ⟨worlds, hsnapshot⟩ := hshows.exists_isSnapshot hformed limited tokens w
  exact ⟨_, hsnapshot.narrow_eq⟩

end Registry

end AliasConsole
