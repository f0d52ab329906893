import AliasConsole.Proofs.Completion.Listing
import AliasConsole.Proofs.Recording
import AliasConsole.Proofs.Session.Submission
import AliasConsole.Session.Keys

/-!
# What completing evaluates

Completing goes through the tokens from left to right.  At each position it evaluates
the living commands that cover it, in their order, and every evaluation once.  Who is
alive at the next position depends on what these evaluations gave, and so do the
suggestions.  An evaluation that fails ends everything.
-/

namespace AliasConsole

variable {W : Type}

/-- What evaluating a list of commands at a position evaluates, and what it answers. -/
inductive Gathers (limited : Bool) (position : ℕ) :
    List (Entry W) → List Evaluation → Except Fault (List (ℕ × List AliasGroup)) → Prop
  | done : Gathers limited position [] [] (.ok [])
  | gives {c : Command W} {index : ℕ} {rest : List (Entry W)} {groups : List AliasGroup}
      {log : List Evaluation} {answer : Except Fault (List (ℕ × List AliasGroup))}
      (hreach : position < c.reach limited) (hrest : Gathers limited position rest log answer) :
      Gathers limited position ((c, index) :: rest) (⟨index, position, .ok groups⟩ :: log)
        (answer.map ((index, groups) :: ·))
  | fails {c : Command W} {index : ℕ} {rest : List (Entry W)} {fault : Fault}
      (hreach : position < c.reach limited) :
      Gathers limited position ((c, index) :: rest) [⟨index, position, .error fault⟩]
        (.error fault)
  | skips {c : Command W} {index : ℕ} {rest : List (Entry W)} {log : List Evaluation}
      {answer : Except Fault (List (ℕ × List AliasGroup))}
      (hreach : ¬position < c.reach limited) (hrest : Gathers limited position rest log answer) :
      Gathers limited position ((c, index) :: rest) log answer

/-- What narrowing tokens evaluates from a position on, and what it answers. -/
inductive Narrows (limited : Bool) :
    ℕ → List (Entry W) → List Text → List Evaluation → Except Fault (List Narrowing) → Prop
  | done {position : ℕ} {alive : List (Entry W)} : Narrows limited position alive [] [] (.ok [])
  | goesOn {position : ℕ} {alive : List (Entry W)} {token : Text} {rest : List Text}
      {evaluated : List (ℕ × List AliasGroup)} {front back : List Evaluation}
      {answer : Except Fault (List Narrowing)}
      (hgathers : Gathers limited position alive front (.ok evaluated))
      (hrest : Narrows limited (position + 1)
        (alive.filter fun e => (Narrowing.of token evaluated).keeps e.2) rest back answer) :
      Narrows limited position alive (token :: rest) (front ++ back)
        (answer.map (Narrowing.of token evaluated :: ·))
  | fails {position : ℕ} {alive : List (Entry W)} {token : Text} {rest : List Text}
      {log : List Evaluation} {fault : Fault}
      (hgathers : Gathers limited position alive log (.error fault)) :
      Narrows limited position alive (token :: rest) log (.error fault)

/-- A completion goes by position, then by command. -/
def scanOrder (command position : ℕ) : ℕ ×ₗ ℕ := toLex (position, command)

/-- The place of an evaluation in a completion. -/
def Evaluation.scanPlace (e : Evaluation) : ℕ ×ₗ ℕ := scanOrder e.command e.position

/-! ## The log of a completion -/

section Records

variable {limited : Bool}

/-- Commands with recorded candidates. -/
def recordedEntries (entries : List (Entry W)) : List (Entry (Recorded W)) :=
  entries.map fun e => (e.1.recorded e.2, e.2)

theorem filter_recordedEntries (keep : ℕ → Bool) (entries : List (Entry W)) :
    (recordedEntries entries).filter (fun e => keep e.2) =
      recordedEntries (entries.filter fun e => keep e.2) :=
  filter_map_command _ keep entries

theorem Command.reach_recorded (command : ℕ) (c : Command W) :
    (c.recorded command).reach limited = c.reach limited := by
  cases limited with
  | true => rfl
  | false => exact List.length_mapIdx

theorem zipIdx_recorded (r : Registry W) :
    r.recorded.commands.zipIdx = recordedEntries r.commands.zipIdx := by
  apply List.ext_getElem
  · simp [Registry.recorded, recordedEntries]
  · intro i hrecorded hown
    simp [Registry.recorded, recordedEntries]

theorem records_evaluateAt {entries : List (Entry W)} (position : ℕ)
    (h : ∀ e ∈ entries, e.1.reach limited ≤ e.1.slots.length) :
    Records (evaluateAt limited position (recordedEntries entries))
      (evaluateAt limited position entries) (Gathers limited position entries) := by
  induction entries with
  | nil => exact Records.pure .done
  | cons e rest ih =>
      obtain ⟨c, index⟩ := e
      obtain ⟨hc, hothers⟩ := List.forall_mem_cons.mp h
      rw [recordedEntries, List.map_cons, evaluateAt, evaluateAt, Command.reach_recorded]
      split_ifs with hreach
      · apply (Command.records_groupsAt index (Nat.lt_of_lt_of_le hreach hc)).bind
        · intro groups front hfront
          obtain rfl : front = _ := hfront
          exact (ih hothers).bind_pure _ fun log answer hlog => .gives hreach hlog
        · intro fault log hlog
          obtain rfl : log = _ := hlog
          exact .fails hreach
      · exact (ih hothers).imp fun log answer hlog => .skips hreach hlog

theorem records_narrowFrom {entries : List (Entry W)} (position : ℕ)
    (h : ∀ e ∈ entries, e.1.reach limited ≤ e.1.slots.length) (tokens : List Text) :
    Records (narrowFrom limited position (recordedEntries entries) tokens)
      (narrowFrom limited position entries tokens) (Narrows limited position entries tokens) := by
  induction tokens generalizing position entries with
  | nil => exact Records.pure .done
  | cons token rest ih =>
      rw [narrowFrom, narrowFrom]
      apply (records_evaluateAt position h).bind
      · intro evaluated front hfront
        have hkept : ∀ e ∈ entries.filter fun e => (Narrowing.of token evaluated).keeps e.2,
            e.1.reach limited ≤ e.1.slots.length := fun e he => h e (List.mem_filter.mp he).1
        have hrest := ih (position + 1) hkept
        rw [← filter_recordedEntries] at hrest
        exact hrest.bind_pure _ fun log answer hlog => .goesOn hfront hlog
      · exact fun fault log hlog => .fails hlog

theorem Registry.WellFormed.records_autocomplete {r : Registry W} (h : r.WellFormed)
    (options : CompletionOptions) (line : Text) :
    Records (autocomplete r.recorded options line) (autocomplete r options line)
      fun log answer => ∃ narrowings,
        Narrows options.limitToFixed 0 r.commands.zipIdx (tokenize line) log narrowings ∧
          answer = narrowings.map (.ofNarrowings options line) := by
  have hreach : ∀ e ∈ r.commands.zipIdx,
      e.1.reach options.limitToFixed ≤ e.1.slots.length :=
    fun e he => h.reach_le (List.fst_mem_of_mem_zipIdx he) _
  have hnarrow := records_narrowFrom 0 hreach (tokenize line)
  rw [← zipIdx_recorded] at hnarrow
  exact hnarrow.bind_pure _ fun log answer hlog => ⟨answer, hlog, rfl⟩

end Records

/-! ## What the evaluations of one position are -/

section Gathers

variable {s : Scan W} {limited : Bool} {position command : ℕ} {entries : List (Entry W)}
  {log : List Evaluation} {answer : Except Fault (List (ℕ × List AliasGroup))}

theorem Gathers.isOf_of_mem (h : Gathers limited position entries log answer) :
    ∀ e ∈ log, e.position = position ∧
      ∃ c, (c, e.command) ∈ entries ∧ position < c.reach limited := by
  induction h with
  | done => simp
  | @gives c index rest groups log answer hreach hrest ih =>
      refine List.forall_mem_cons.mpr ⟨⟨rfl, c, List.mem_cons_self, hreach⟩, fun e he => ?_⟩
      obtain ⟨hposition, d, hd, hcovers⟩ := ih e he
      exact ⟨hposition, d, List.mem_cons_of_mem _ hd, hcovers⟩
  | @fails c index rest fault hreach =>
      intro e he
      obtain rfl := List.mem_singleton.mp he
      exact ⟨rfl, c, List.mem_cons_self, hreach⟩
  | skips hreach hrest ih =>
      intro e he
      obtain ⟨hposition, d, hd, hcovers⟩ := ih e he
      exact ⟨hposition, d, List.mem_cons_of_mem _ hd, hcovers⟩

theorem Gathers.endsAtFault (h : Gathers limited position entries log answer) :
    EndsAtFault log answer := by
  induction h with
  | done => exact .nil []
  | gives hreach hrest ih => exact (EndsAtFault.of_groups _ _ _ ()).append (ih.map _)
  | fails hreach => exact .of_failure _ _ _
  | skips hreach hrest ih => exact ih

theorem Gathers.pairwise_command (h : Gathers limited position entries log answer)
    (hordered : entries.Pairwise fun a b => a.2 < b.2) :
    log.Pairwise fun a b => a.command < b.command := by
  induction h with
  | done => exact List.Pairwise.nil
  | gives hreach hrest ih =>
      obtain ⟨hhead, htail⟩ := List.pairwise_cons.mp hordered
      refine List.pairwise_cons.mpr ⟨fun e he => ?_, ih htail⟩
      obtain ⟨-, c, hc, -⟩ := hrest.isOf_of_mem e he
      exact hhead _ hc
  | fails hreach => exact List.pairwise_singleton _ _
  | skips hreach hrest ih => exact ih (List.pairwise_cons.mp hordered).2

theorem Gathers.pairwise (h : Gathers limited position entries log answer)
    (hordered : entries.Pairwise fun a b => a.2 < b.2) :
    log.Pairwise fun a b => a.scanPlace < b.scanPlace := by
  apply (h.pairwise_command hordered).imp_of_mem
  intro a b ha hb hlt
  apply Prod.Lex.toLex_lt_toLex.mpr
  rw [(h.isOf_of_mem a ha).1, (h.isOf_of_mem b hb).1]
  exact Or.inr ⟨rfl, hlt⟩

/-- A command of the list is evaluated if it covers the position and no command before it
fails. -/
theorem Gathers.exists_command_iff (h : Gathers limited position entries log answer)
    (hordered : entries.Pairwise fun a b => a.2 < b.2) :
    (∃ e ∈ log, e.command = command) ↔
      (∃ c, (c, command) ∈ entries ∧ position < c.reach limited) ∧
        ∀ e ∈ log, e.Fails → command ≤ e.command := by
  induction h with
  | done => simp
  | @gives c index rest groups log answer hreach hrest ih =>
      obtain ⟨hhead, htail⟩ := List.pairwise_cons.mp hordered
      have hfine : ¬Evaluation.Fails ⟨index, position, .ok groups⟩ := nofun
      simp only [List.mem_cons, exists_eq_or_imp, forall_eq_or_imp, hfine, false_imp_iff,
        true_and, ih htail, Prod.mk.injEq]
      by_cases hcommand : index = command
      · refine iff_of_true (Or.inl hcommand) ⟨⟨c, Or.inl ⟨rfl, hcommand.symm⟩, hreach⟩, ?_⟩
        intro e he _
        obtain ⟨-, d, hd, -⟩ := hrest.isOf_of_mem e he
        exact hcommand ▸ (hhead _ hd).le
      · simp only [hcommand, Ne.symm hcommand, and_false, false_or]
  | @fails c index rest fault hreach =>
      obtain ⟨hhead, -⟩ := List.pairwise_cons.mp hordered
      have hfails : Evaluation.Fails ⟨index, position, .error fault⟩ := ⟨fault, rfl⟩
      simp only [List.mem_singleton, exists_eq_left, forall_eq, hfails, true_imp_iff]
      constructor
      · rintro rfl
        exact ⟨⟨c, List.mem_cons_self, hreach⟩, le_rfl⟩
      · rintro ⟨⟨d, hd, -⟩, hle⟩
        rcases List.mem_cons.mp hd with heq | hd
        · exact (congrArg Prod.snd heq).symm
        · exact absurd (hhead _ hd) (not_lt_of_ge hle)
  | @skips c index rest log answer hreach hrest ih =>
      rw [ih (List.pairwise_cons.mp hordered).2]
      refine and_congr_left fun _ => exists_congr fun d => and_congr_left fun hcovers => ?_
      rw [List.mem_cons, or_iff_right]
      intro heq
      obtain ⟨rfl, -⟩ := Prod.mk.inj heq
      exact hreach hcovers

theorem Gathers.eq_shown (h : Gathers s.limited position entries log answer)
    (htable : ∀ e ∈ log, e.AgreesWith s.groups) {evaluated : List (ℕ × List AliasGroup)}
    (hanswer : answer = .ok evaluated) : evaluated = s.shown position entries := by
  induction h generalizing evaluated with
  | done => exact (Except.ok.inj hanswer).symm
  | @gives c index rest groups log answer hreach hrest ih =>
      obtain ⟨hhead, htail⟩ := List.forall_mem_cons.mp htable
      cases answer with
      | error fault => cases hanswer
      | ok tail =>
          obtain rfl := Except.ok.inj hanswer
          obtain rfl : s.groups position index = groups := hhead groups rfl
          rw [ih htail rfl]
          simp [Scan.shown, hreach]
  | fails hreach => cases hanswer
  | @skips c index rest log answer hreach hrest ih =>
      rw [ih htable hanswer]
      simp [Scan.shown, hreach]

end Gathers

/-! ## What the evaluations of a completion are -/

section Narrows

variable {s : Scan W} {position : ℕ} {entries : List (Entry W)}
  {rest : List Text} {log : List Evaluation} {answer : Except Fault (List Narrowing)}

/-- At a position the commands are evaluated that are alive there and cover it. -/
theorem Gathers.hasDue {answer : Except Fault (List (ℕ × List AliasGroup))}
    (h : Gathers s.limited position (s.survivors position) log answer)
    (hposition : position < s.tokens.length) :
    HasDue scanOrder log fun command t =>
      t = position ∧ s.Alive t command ∧ s.Covers t command := by
  intro command t
  beta_reduce
  by_cases ht : t = position
  · subst ht
    have hof : ∀ e ∈ log, (e.IsOf command t ↔ e.command = command) :=
      fun e he => and_iff_left (h.isOf_of_mem e he).1
    have hplace : ∀ e ∈ log, (scanOrder command t ≤ scanOrder e.command e.position ↔
        command ≤ e.command) := by
      intro e he
      rw [scanOrder, scanOrder, Prod.Lex.toLex_le_toLex, (h.isOf_of_mem e he).1]
      simp only [lt_irrefl, false_or, true_and]
    have hcovered : (∃ c, (c, command) ∈ s.survivors t ∧ t < c.reach s.limited) ↔
        s.Alive t command ∧ s.Covers t command := by
      simp only [Scan.mem_survivors_iff hposition.le, Scan.Covers]
      constructor
      · rintro ⟨c, ⟨hc, halive⟩, hreach⟩
        exact ⟨halive, c, hc, hreach⟩
      · rintro ⟨halive, c, hc, hreach⟩
        exact ⟨c, ⟨hc, halive⟩, hreach⟩
    rw [exists_congr fun e => and_congr_right (hof e),
      h.exists_command_iff (s.pairwise_survivors t), hcovered, and_iff_right rfl]
    exact and_congr_right fun _ => forall₂_congr fun e he => by rw [hplace e he]
  · refine iff_of_false ?_ fun h => ht h.1.1
    rintro ⟨e, he, hof⟩
    exact ht (hof.2.symm.trans (h.isOf_of_mem e he).1)

theorem Gathers.narrowing_eq {token : Text} {evaluated : List (ℕ × List AliasGroup)}
    (h : Gathers s.limited position (s.survivors position) log (.ok evaluated))
    (htable : ∀ e ∈ log, e.AgreesWith s.groups) (htoken : s.tokens[position]? = some token) :
    Narrowing.of token evaluated = s.narrowingAt position := by
  rw [h.eq_shown htable rfl, Scan.narrowingAt, Scan.narrowingOf_eq htoken]

theorem Gathers.filter_survivors {token : Text} {evaluated : List (ℕ × List AliasGroup)}
    (h : Gathers s.limited position (s.survivors position) log (.ok evaluated))
    (htable : ∀ e ∈ log, e.AgreesWith s.groups) (htoken : s.tokens[position]? = some token) :
    (s.survivors position).filter (fun e => (Narrowing.of token evaluated).keeps e.2) =
      s.survivors (position + 1) := by
  rw [h.narrowing_eq htable htoken]
  rfl

theorem Narrows.le_position {limited : Bool}
    (h : Narrows limited position entries rest log answer) :
    ∀ e ∈ log, position ≤ e.position := by
  induction h with
  | done => simp
  | goesOn hgathers hrest ih =>
      refine List.forall_mem_append.mpr ⟨fun e he => ?_, fun e he => Nat.le_of_succ_le (ih e he)⟩
      exact (hgathers.isOf_of_mem e he).1.ge
  | fails hgathers => exact fun e he => (hgathers.isOf_of_mem e he).1.ge

theorem Narrows.endsAtFault {limited : Bool}
    (h : Narrows limited position entries rest log answer) : EndsAtFault log answer := by
  induction h with
  | done => exact .nil []
  | goesOn hgathers hrest ih => exact hgathers.endsAtFault.append (ih.map _)
  | fails hgathers => exact hgathers.endsAtFault.congr (by simp)

theorem Narrows.pairwise {limited : Bool}
    (h : Narrows limited position entries rest log answer)
    (hordered : entries.Pairwise fun a b => a.2 < b.2) :
    log.Pairwise fun a b => a.scanPlace < b.scanPlace := by
  induction h with
  | done => exact List.Pairwise.nil
  | goesOn hgathers hrest ih =>
      refine List.pairwise_append.mpr
        ⟨hgathers.pairwise hordered, ih (hordered.filter _), fun a ha b hb => ?_⟩
      apply Prod.Lex.toLex_lt_toLex.mpr
      rw [(hgathers.isOf_of_mem a ha).1]
      exact Or.inl (hrest.le_position b hb)
  | fails hgathers => exact hgathers.pairwise hordered

/-- What is evaluated is what is alive and covered, up to the first evaluation that
fails. -/
theorem Narrows.hasDue (h : Narrows s.limited position entries rest log answer)
    (hentries : entries = s.survivors position) (hrest : s.tokens.drop position = rest)
    (htable : ∀ e ∈ log, e.AgreesWith s.groups) :
    HasDue scanOrder log fun command t =>
      position ≤ t ∧ t < s.tokens.length ∧ s.Alive t command ∧ s.Covers t command := by
  induction h with
  | done =>
      intro command t
      have hlength := List.drop_eq_nil_iff.mp hrest
      simp only [List.not_mem_nil, false_and, exists_false, false_iff]
      rintro ⟨⟨hle, hlt, -⟩, -⟩
      omega
  | @goesOn position alive token rest evaluated front back answer hgathers hnarrows ih =>
      obtain ⟨htoken, hmore⟩ := getElem?_of_drop_eq_cons hrest
      have hlt : position < s.tokens.length := (List.getElem?_eq_some_iff.mp htoken).1
      obtain ⟨hfront, hback⟩ := List.forall_mem_append.mp htable
      subst hentries
      have hothers := ih (hgathers.filter_survivors hfront htoken) hmore hback
      have hboth := (hgathers.hasDue hlt).append hothers hgathers.endsAtFault.not_fails ?_
      · apply hboth.congr
        intro command t _
        constructor
        · rintro ⟨hle, hcovered⟩
          rcases Nat.eq_or_lt_of_le hle with rfl | hgt
          · exact Or.inl ⟨rfl, hcovered.2⟩
          · exact Or.inr ⟨hgt, hcovered⟩
        · rintro (⟨rfl, hcovered⟩ | ⟨hgt, hcovered⟩)
          · exact ⟨le_rfl, hlt, hcovered⟩
          · exact ⟨Nat.le_of_succ_le hgt, hcovered⟩
      · rintro command t ⟨rfl, -⟩ e he
        exact Prod.Lex.toLex_le_toLex.mpr (Or.inl (hnarrows.le_position e he))
  | @fails position alive token rest log fault hgathers =>
      obtain ⟨htoken, -⟩ := getElem?_of_drop_eq_cons hrest
      have hlt : position < s.tokens.length := (List.getElem?_eq_some_iff.mp htoken).1
      obtain ⟨e, he, hfault⟩ := hgathers.endsAtFault.exists_of_error fault rfl
      subst hentries
      apply (hgathers.hasDue hlt).congr
      intro command t hfails
      constructor
      · rintro ⟨hle, -, hcovered⟩
        have hposition : e.position = position := (hgathers.isOf_of_mem e he).1
        have hplace := Prod.Lex.toLex_le_toLex.mp (hfails e he ⟨fault, hfault⟩)
        rw [hposition] at hplace
        exact ⟨le_antisymm (hplace.elim le_of_lt fun h => h.1.le) hle, hcovered⟩
      · rintro ⟨rfl, hcovered⟩
        exact ⟨le_rfl, hlt, hcovered⟩

theorem Narrows.eq_narrowings
    (h : Narrows s.limited position entries rest log answer)
    (hentries : entries = s.survivors position) (hrest : s.tokens.drop position = rest)
    (htable : ∀ e ∈ log, e.AgreesWith s.groups) {narrowings : List Narrowing}
    (hanswer : answer = .ok narrowings) :
    narrowings = (List.range' position rest.length).map s.narrowingAt := by
  induction h generalizing narrowings with
  | done => exact (Except.ok.inj hanswer).symm
  | @goesOn position alive token rest evaluated front back answer hgathers hnarrows ih =>
      obtain ⟨htoken, hmore⟩ := getElem?_of_drop_eq_cons hrest
      obtain ⟨hfront, hback⟩ := List.forall_mem_append.mp htable
      subst hentries
      have hkept := hgathers.filter_survivors hfront htoken
      cases answer with
      | error fault => cases hanswer
      | ok later =>
          obtain rfl := Except.ok.inj hanswer
          rw [ih hkept hmore hback rfl, hgathers.narrowing_eq hfront htoken, List.length_cons,
            List.range'_succ, List.map_cons]
  | fails hgathers => cases hanswer

/-! ## What suggestions are made of -/

/-- Every suggestion is about a command that is alive at the position and covers it, and
has a group that was seen there with an alias of it. -/
theorem Scan.seen_of_mem_suggestionsFrom (s : Scan W) {x : Suggestion}
    (hx : x ∈ suggestionsFrom 0 s.narrowings) :
    (x.position < s.tokens.length ∧ s.Alive x.position x.found.command ∧
      s.Covers x.position x.found.command) ∧
      (s.groups x.position x.found.command)[x.found.group]? = some x.found.aliases ∧
      x.found.best ∈ x.found.aliases := by
  obtain ⟨i, n, hn, hposition, hfound, -⟩ := mem_suggestionsFrom_iff.mp hx
  obtain ⟨hlt, rfl⟩ := getElem?_narrowings.mp hn
  obtain rfl : x.position = i := hposition.trans (Nat.zero_add i)
  have htoken := List.getElem?_eq_getElem hlt
  obtain ⟨c, hmem, hreach, aliases, hgroup, hstands⟩ := (mem_found_iff htoken).mp hfound
  obtain ⟨hc, halive⟩ := (mem_survivors_iff hlt.le _).mp hmem
  obtain rfl := hstands.aliases_eq
  exact ⟨⟨hlt, halive, c, hc, hreach⟩, hgroup, hstands.isBest.firstLeast.mem⟩

/-- If no evaluation fails, every suggestion has its group and its alias from the
evaluation of its command at its position. -/
theorem Narrows.evaluation_of_mem_suggestionsFrom {narrowings : List Narrowing}
    (h : Narrows s.limited 0 s.registry.commands.zipIdx s.tokens log (.ok narrowings))
    (htable : ∀ e ∈ log, e.AgreesWith s.groups) {x : Suggestion}
    (hx : x ∈ suggestionsFrom 0 narrowings) :
    ∃ e ∈ log, e.IsOf x.found.command x.position ∧ ∃ groups, e.outcome = .ok groups ∧
      groups[x.found.group]? = some x.found.aliases ∧ x.found.best ∈ x.found.aliases := by
  have hall : s.tokens.drop 0 = s.tokens := rfl
  have hnarrowings : narrowings = s.narrowings := by
    rw [Scan.narrowings, List.range_eq_range']
    exact h.eq_narrowings rfl hall htable rfl
  rw [hnarrowings] at hx
  obtain ⟨hseen, hgroup, hbest⟩ := s.seen_of_mem_suggestionsFrom hx
  have hfine := h.endsAtFault.not_fails
  have hnone : ∀ e ∈ log, e.Fails →
      scanOrder x.found.command x.position ≤ scanOrder e.command e.position :=
    fun e he hfails => absurd hfails (hfine e he)
  obtain ⟨e, he, hof⟩ := (h.hasDue rfl hall htable x.found.command x.position).mpr
    ⟨⟨Nat.zero_le _, hseen⟩, hnone⟩
  obtain ⟨groups, hgroups⟩ := Evaluation.exists_groups_of_not_fails (hfine e he)
  have hagree := htable e he groups hgroups
  rw [hof.1, hof.2] at hagree
  exact ⟨e, he, hof, groups, hgroups, hagree ▸ hgroup, hbest⟩

end Narrows

/-! ## One completion -/

theorem Session.press_autocomplete_of_error {s : Session W} {fault : Fault} {w : W} (depth : ℕ)
    (h : AliasConsole.autocomplete s.registry .full s.typed s.world = .error fault w) :
    press depth .autocomplete s = .error fault { s with world := w } := by
  have hreading := reading_of_error h
  have hautocomplete : Session.autocomplete s = .error fault { s with world := w } := by
    rw [Session.autocomplete, get_bind]
    exact bind_of_error hreading
  exact bind_of_error hautocomplete

/-- Completing evaluates the living commands at the positions that they cover, each once
and in their order, up to the first evaluation that fails.  If none fails, every
suggestion has its group and its alias from the evaluation of its command at its
position.  If one fails, its fault comes out, and the key that completes the typed line
changes nothing but the world. -/
theorem autocomplete_recorded {r : Registry W} (hformed : r.WellFormed)
    (options : CompletionOptions) (line : Text) (w : W) :
    (∃ log, autocomplete r.recorded options line ⟨w, []⟩ =
        withLog log (autocomplete r options line w) ∧
      log.Pairwise (fun a b => a.scanPlace < b.scanPlace) ∧
      (∀ command position, (∃ e ∈ log, e.IsOf command position) ↔
        (position < (tokenize line).length ∧
          (Scan.ofLine r options line (groupsSeen log)).Alive position command ∧
          (Scan.ofLine r options line (groupsSeen log)).Covers position command) ∧
          ∀ e ∈ log, e.Fails → scanOrder command position ≤ e.scanPlace) ∧
      ((∀ e ∈ log, ¬e.Fails) →
        ∃ completion w', autocomplete r options line w = .ok completion w' ∧
          ∀ x ∈ completion.suggestions, ∃ e ∈ log, e.IsOf x.found.command x.position ∧
            ∃ groups, e.outcome = .ok groups ∧
              groups[x.found.group]? = some x.found.aliases ∧ x.found.best ∈ x.found.aliases) ∧
      ∀ e ∈ log, ∀ fault, e.outcome = .error fault →
        log.getLast? = some e ∧ ∃ w', autocomplete r options line w = .error fault w') ∧
      ∀ (depth : ℕ) (s : Session W) (fault : Fault) (w' : W), s.registry = r →
        autocomplete r .full s.typed s.world = .error fault w' →
          Session.press depth .autocomplete s = .error fault { s with world := w' } := by
  refine ⟨?_, ?_⟩
  · obtain ⟨log, ⟨own, hnarrows, hanswer⟩, hrun⟩ :=
      hformed.records_autocomplete options line w
    have hordered := hnarrows.pairwise (pairwise_zipIdx r.commands)
    have htable : ∀ e ∈ log, e.AgreesWith (groupsSeen log) :=
      agreesWith_groupsSeen scanOrder hordered
    let s := Scan.ofLine r options line (groupsSeen log)
    have hdue := hnarrows.hasDue (s := s) rfl rfl htable
    refine ⟨log, hrun [], hordered, fun command position => ?_, fun hfine => ?_, ?_⟩
    · have hhere := hdue command position
      simp only [Nat.zero_le, true_and] at hhere
      exact hhere
    · cases own with
      | error fault =>
          obtain ⟨e, he, hfault⟩ := hnarrows.endsAtFault.exists_of_error fault rfl
          exact absurd ⟨fault, hfault⟩ (hfine e he)
      | ok narrowings =>
          obtain ⟨w', hcompletion⟩ := answerOf_eq_ok_iff.mp hanswer
          refine ⟨_, w', hcompletion, fun x hx => ?_⟩
          exact hnarrows.evaluation_of_mem_suggestionsFrom (s := s) htable
            ((Completion.suggestions_sublist _ _ _).subset hx)
    · intro e he fault hfault
      obtain ⟨hlast, rfl⟩ := hnarrows.endsAtFault.of_fault e he fault hfault
      exact ⟨hlast, answerOf_eq_error_iff.mp hanswer⟩
  · rintro depth s fault w' rfl h
    exact Session.press_autocomplete_of_error depth h

/-- The third command only contains the first token and is not evaluated again, and the
second one is evaluated once, when its source offers three groups. -/
theorem autocomplete_recorded_counting :
    Registry.counting.WellFormed ∧
      ∃ log, autocomplete Registry.counting.recorded .full "AB o".toList ⟨3, []⟩ =
          withLog log (autocomplete Registry.counting .full "AB o".toList 3) ∧
        log.map Evaluation.scanPlace =
          [toLex (0, 0), toLex (0, 1), toLex (0, 2), toLex (1, 0), toLex (1, 1)] ∧
        (Scan.ofLine Registry.counting .full "AB o".toList (groupsSeen log)).Alive 1 1 ∧
        ∃ completion w', autocomplete Registry.counting .full "AB o".toList 3 =
            .ok completion w' ∧
          ∀ x ∈ completion.suggestions, ∃ e ∈ log, e.IsOf x.found.command x.position ∧
            ∃ groups, e.outcome = .ok groups ∧
              groups[x.found.group]? = some x.found.aliases ∧ x.found.best ∈ x.found.aliases := by
  have hformed : Registry.counting.WellFormed := by decide
  obtain ⟨⟨log, hrun, -, hevaluated, hseen, -⟩, -⟩ :=
    autocomplete_recorded hformed .full "AB o".toList 3
  have hlog : log = [⟨0, 0, .ok [["abcd".toList, "ab".toList], []]⟩,
      ⟨1, 0, .ok [["abyss".toList]]⟩, ⟨2, 0, .ok [["xaby".toList]]⟩,
      ⟨0, 1, .ok [["one".toList]]⟩, ⟨1, 1, .ok (List.replicate 3 ["ones".toList])⟩] := by
    rw [← logAfter_withLog log (autocomplete Registry.counting .full "AB o".toList 3), ← hrun]
    rfl
  have hfine : ∀ e ∈ log, ¬e.Fails := by
    rw [hlog]
    simp [Evaluation.Fails]
  have hagain : ∃ e ∈ log, e.IsOf 1 1 := by
    rw [hlog]
    exact ⟨_, List.mem_of_getLast? rfl, rfl, rfl⟩
  refine ⟨hformed, log, hrun, ?_, ((hevaluated 1 1).mp hagain).1.2.1, hseen hfine⟩
  rw [hlog]
  rfl

end AliasConsole
