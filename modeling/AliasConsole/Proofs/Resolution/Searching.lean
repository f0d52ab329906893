import AliasConsole.Proofs.Recording
import AliasConsole.Proofs.Resolution

/-!
# What resolving evaluates

Resolving checks the commands in their order and the fixed tokens of a command from left
to right.  It evaluates a position only to check the token there, and it stops a command
at the first token that is no alias and the search at the first command that accepts
all tokens.  An evaluation that fails ends everything.
-/

namespace AliasConsole

/-- What checking a number of tokens of a command from a position on evaluates, and what
it answers. -/
inductive Checks (command : ℕ) (tokens : List Text) :
    ℕ → ℕ → List Evaluation → Except Fault Bool → Prop
  | done {position : ℕ} : Checks command tokens 0 position [] (.ok true)
  | goesOn {count position : ℕ} {token : Text} {groups : List AliasGroup}
      {log : List Evaluation} {answer : Except Fault Bool}
      (htoken : tokens[position]? = some token)
      (hgroups : ∃ aliases ∈ groups, token ∈ aliases)
      (hrest : Checks command tokens count (position + 1) log answer) :
      Checks command tokens (count + 1) position (⟨command, position, .ok groups⟩ :: log) answer
  | refuses {count position : ℕ} {token : Text} {groups : List AliasGroup}
      (htoken : tokens[position]? = some token)
      (hgroups : ¬∃ aliases ∈ groups, token ∈ aliases) :
      Checks command tokens (count + 1) position [⟨command, position, .ok groups⟩] (.ok false)
  | fails {count position : ℕ} {fault : Fault} :
      Checks command tokens (count + 1) position [⟨command, position, .error fault⟩]
        (.error fault)

/-- What searching the commands from an index on evaluates, and what it answers. -/
inductive Searches {W : Type} (tokens : List Text) :
    ℕ → List (Command W) → List Evaluation → Except Fault (Option ℕ) → Prop
  | exhausted {index : ℕ} : Searches tokens index [] [] (.ok none)
  | tooLong {index : ℕ} {c : Command W} {rest : List (Command W)} {log : List Evaluation}
      {answer : Except Fault (Option ℕ)} (hlength : tokens.length < c.fixed)
      (hrest : Searches tokens (index + 1) rest log answer) :
      Searches tokens index (c :: rest) log answer
  | refused {index : ℕ} {c : Command W} {rest : List (Command W)}
      {front back : List Evaluation} {answer : Except Fault (Option ℕ)}
      (hlength : c.fixed ≤ tokens.length)
      (hchecks : Checks index tokens c.fixed 0 front (.ok false))
      (hrest : Searches tokens (index + 1) rest back answer) :
      Searches tokens index (c :: rest) (front ++ back) answer
  | found {index : ℕ} {c : Command W} {rest : List (Command W)} {log : List Evaluation}
      (hlength : c.fixed ≤ tokens.length)
      (hchecks : Checks index tokens c.fixed 0 log (.ok true)) :
      Searches tokens index (c :: rest) log (.ok (some index))
  | failed {index : ℕ} {c : Command W} {rest : List (Command W)} {log : List Evaluation}
      {fault : Fault} (hlength : c.fixed ≤ tokens.length)
      (hchecks : Checks index tokens c.fixed 0 log (.error fault)) :
      Searches tokens index (c :: rest) log (.error fault)

/-- A search goes by command, then by position. -/
def searchOrder (command position : ℕ) : ℕ ×ₗ ℕ := toLex (command, position)

/-- The place of an evaluation in a search. -/
def Evaluation.searchPlace (e : Evaluation) : ℕ ×ₗ ℕ := searchOrder e.command e.position

/-! ## The log of a search -/

section Records

variable {W : Type} {tokens : List Text}

theorem Command.records_acceptsFrom (command : ℕ) {c : Command W} {count position : ℕ}
    (hslots : position + count ≤ c.slots.length) (htokens : position + count ≤ tokens.length) :
    Records ((c.recorded command).acceptsFrom tokens count position)
      (c.acceptsFrom tokens count position) (Checks command tokens count position) := by
  induction count generalizing position with
  | zero => exact Records.pure .done
  | succ count ih =>
      have hslot : position < c.slots.length := by omega
      have htoken : tokens[position]? = some (tokens.get ⟨position, by omega⟩) :=
        List.getElem?_eq_getElem (by omega)
      have hrest := @ih (position + 1) (by omega) (by omega)
      rw [acceptsFrom, acceptsFrom, htoken]
      apply (records_groupsAt command hslot).bind
      · intro groups front hfront
        obtain rfl : front = _ := hfront
        dsimp only
        split_ifs with hgroups
        · apply hrest.imp
          intro log answer hlog
          exact .goesOn htoken (by simpa using hgroups) hlog
        · exact Records.pure (.refuses htoken (by simpa using hgroups))
      · intro fault log hlog
        obtain rfl : log = _ := hlog
        exact .fails

/-- A command with more fixed tokens than there are tokens evaluates nothing. -/
theorem Command.records_accepts (command : ℕ) {c : Command W} (h : c.fixed ≤ c.slots.length) :
    Records ((c.recorded command).accepts tokens) (c.accepts tokens) fun log answer =>
      (tokens.length < c.fixed ∧ log = [] ∧ answer = .ok false) ∨
        (c.fixed ≤ tokens.length ∧ Checks command tokens c.fixed 0 log answer) := by
  have hfixed : (c.recorded command).fixed = c.fixed := rfl
  rw [accepts, accepts, hfixed]
  split_ifs with hlength
  · exact Records.pure (Or.inl ⟨hlength, rfl, rfl⟩)
  · have henough : c.fixed ≤ tokens.length := not_lt.mp hlength
    apply (records_acceptsFrom command (by omega) (by omega)).imp
    exact fun log answer hchecks => Or.inr ⟨henough, hchecks⟩

theorem Registry.records_resolveExactFrom (tokens : List Text) {commands : List (Command W)}
    (hformed : ∀ c ∈ commands, c.fixed ≤ c.slots.length) (index : ℕ) :
    Records (resolveExactFrom tokens index (commands.mapIdx fun i => Command.recorded (index + i)))
      (resolveExactFrom tokens index commands) (Searches tokens index commands) := by
  induction commands generalizing index with
  | nil => exact Records.pure .exhausted
  | cons c rest ih =>
      have hrest := ih (fun d hd => hformed d (List.mem_cons_of_mem c hd)) (index + 1)
      simp only [Nat.add_assoc, Nat.add_comm 1] at hrest
      rw [List.mapIdx_cons, resolveExactFrom, resolveExactFrom, Nat.add_zero]
      apply (Command.records_accepts index (hformed c List.mem_cons_self)).bind
      · rintro accepted front (⟨hlength, rfl, haccepted⟩ | ⟨hlength, hchecks⟩)
        · obtain rfl := Except.ok.inj haccepted
          exact hrest.imp fun log answer hlog => .tooLong hlength hlog
        · cases accepted with
          | true =>
              apply Records.pure
              rw [List.append_nil]
              exact .found hlength hchecks
          | false => exact hrest.imp fun log answer hlog => .refused hlength hchecks hlog
      · rintro fault log (⟨-, -, hanswer⟩ | ⟨hlength, hchecks⟩)
        · cases hanswer
        · exact .failed hlength hchecks

/-- The log of resolving is that of a search; of a fault that comes out, resolving makes
what it is in the middle of a match. -/
theorem Registry.WellFormed.records_resolveExact {r : Registry W} (h : r.WellFormed)
    (tokens : List Text) :
    Records (r.recorded.resolveExact tokens) (r.resolveExact tokens) fun log answer =>
      ∃ own, Searches tokens 0 r.commands log own ∧ answer = own.mapError Fault.duringMatch := by
  have hsearch := records_resolveExactFrom tokens h 0
  simp only [Nat.zero_add] at hsearch
  exact hsearch.tryCatch_throw Fault.duringMatch

end Records

/-! ## What a search evaluates -/

section Checks

variable {command count position p : ℕ} {tokens : List Text} {log : List Evaluation}
  {answer : Except Fault Bool} {table : GroupTable}

theorem Checks.isOf_of_mem (h : Checks command tokens count position log answer) :
    ∀ e ∈ log, e.command = command ∧ position ≤ e.position ∧ e.position < position + count := by
  induction h with
  | done => simp
  | goesOn htoken hgroups hrest ih =>
      refine List.forall_mem_cons.mpr ⟨⟨rfl, le_rfl, by dsimp only; omega⟩, fun e he => ?_⟩
      obtain ⟨hcommand, hle, hlt⟩ := ih e he
      exact ⟨hcommand, by omega, by omega⟩
  | refuses htoken hgroups => simp
  | fails => simp

theorem Checks.pairwise (h : Checks command tokens count position log answer) :
    log.Pairwise fun a b => a.searchPlace < b.searchPlace := by
  induction h with
  | done => exact List.Pairwise.nil
  | goesOn htoken hgroups hrest ih =>
      refine List.pairwise_cons.mpr ⟨fun e he => ?_, ih⟩
      obtain ⟨hcommand, hle, -⟩ := hrest.isOf_of_mem e he
      exact Prod.Lex.toLex_lt_toLex.mpr (Or.inr ⟨hcommand.symm, hle⟩)
  | refuses htoken hgroups => exact List.pairwise_singleton _ _
  | fails => exact List.pairwise_singleton _ _

theorem Checks.endsAtFault (h : Checks command tokens count position log answer) :
    EndsAtFault log answer := by
  induction h with
  | done => exact .nil true
  | goesOn htoken hgroups hrest ih => exact (EndsAtFault.of_groups _ _ _ true).append ih
  | refuses htoken hgroups => exact .of_groups _ _ _ false
  | fails => exact .of_failure _ _ _

/-- The tokens from a position up to another one are aliases of the command there. -/
def OffersBetween (table : GroupTable) (tokens : List Text) (command first last : ℕ) : Prop :=
  ∀ q, first ≤ q → q < last → ∀ token, tokens[q]? = some token → Offers table q command token

theorem offersBetween_of_le {first last : ℕ} (h : last ≤ first) :
    OffersBetween table tokens command first last := by
  intro q hle hlt
  exact absurd (lt_of_lt_of_le hlt h) (not_lt_of_ge hle)

theorem offersBetween_iff {first last : ℕ} {token : Text} (htoken : tokens[first]? = some token)
    (hlt : first < last) :
    OffersBetween table tokens command first last ↔
      Offers table first command token ∧ OffersBetween table tokens command (first + 1) last := by
  constructor
  · intro h
    exact ⟨h first le_rfl hlt token htoken, fun q hle => h q (Nat.le_of_succ_le hle)⟩
  · rintro ⟨hhere, hrest⟩ q hle hq t ht
    rcases Nat.eq_or_lt_of_le hle with rfl | hgt
    · rw [htoken, Option.some.injEq] at ht
      rwa [← ht]
    · exact hrest q hgt hq t ht

/-- Checking accepts the tokens if all of them are aliases at their positions. -/
theorem Checks.accepted_iff (h : Checks command tokens count position log answer)
    (htable : ∀ e ∈ log, e.AgreesWith table) {accepted : Bool} (hanswer : answer = .ok accepted) :
    accepted = true ↔ OffersBetween table tokens command position (position + count) := by
  induction h with
  | done =>
      obtain rfl := Except.ok.inj hanswer
      exact iff_of_true rfl (offersBetween_of_le le_rfl)
  | goesOn htoken hgroups hrest ih =>
      obtain ⟨hhere, htail⟩ := List.forall_mem_cons.mp htable
      rw [offersBetween_iff htoken (by omega), Offers, hhere _ rfl, ih htail hanswer,
        Nat.add_right_comm, Nat.add_assoc]
      exact (and_iff_right hgroups).symm
  | refuses htoken hgroups =>
      obtain rfl := Except.ok.inj hanswer
      rw [offersBetween_iff htoken (by omega), Offers, htable _ List.mem_cons_self _ rfl]
      exact iff_of_false Bool.false_ne_true fun hall => hgroups hall.1
  | fails => cases hanswer

/-- A position is evaluated if the tokens before it are aliases at their positions and
no evaluation before it fails. -/
theorem Checks.exists_position_iff (h : Checks command tokens count position log answer)
    (htable : ∀ e ∈ log, e.AgreesWith table) :
    (∃ e ∈ log, e.position = p) ↔
      (position ≤ p ∧ p < position + count ∧ OffersBetween table tokens command position p) ∧
        ∀ e ∈ log, e.Fails → p ≤ e.position := by
  induction h with
  | done =>
      simp only [List.not_mem_nil, false_and, exists_false, false_iff]
      rintro ⟨⟨hle, hlt, -⟩, -⟩
      omega
  | @goesOn count position token groups log answer htoken hgroups hrest ih =>
      obtain ⟨hhere, htail⟩ := List.forall_mem_cons.mp htable
      have hoffers : Offers table position command token := by
        rw [Offers, hhere groups rfl]
        exact hgroups
      have hhead := Evaluation.not_fails_ok command position groups
      simp only [List.mem_cons, exists_eq_or_imp, forall_eq_or_imp, ih htail, hhead,
        false_imp_iff, true_and]
      rcases Nat.lt_trichotomy p position with hlt | rfl | hgt
      · omega
      · refine iff_of_true (Or.inl rfl) ⟨⟨le_rfl, by omega, offersBetween_of_le le_rfl⟩, ?_⟩
        intro e he _
        exact Nat.le_of_succ_le (hrest.isOf_of_mem e he).2.1
      · rw [offersBetween_iff htoken hgt, and_iff_right hoffers]
        have hne : position ≠ p := Nat.ne_of_lt hgt
        have hbound : p < position + 1 + count ↔ p < position + (count + 1) := by omega
        simp only [hne, false_or, hbound, hgt.le, Nat.succ_le_of_lt hgt]
  | @refuses count position token groups htoken hgroups =>
      have hhere := htable _ List.mem_cons_self groups rfl
      have hhead := Evaluation.not_fails_ok command position groups
      simp only [List.mem_singleton, exists_eq_left, forall_eq, hhead, false_imp_iff, and_true]
      constructor
      · rintro rfl
        exact ⟨le_rfl, by omega, offersBetween_of_le le_rfl⟩
      · rintro ⟨hle, -, hall⟩
        by_contra hne
        have hhead := (offersBetween_iff htoken (lt_of_le_of_ne hle hne)).mp hall
        rw [Offers, hhere] at hhead
        exact hgroups hhead.1
  | @fails count position fault =>
      have hhead : Evaluation.Fails ⟨command, position, .error fault⟩ := ⟨fault, rfl⟩
      simp only [List.mem_singleton, exists_eq_left, forall_eq, hhead, true_imp_iff]
      constructor
      · rintro rfl
        exact ⟨⟨le_rfl, by omega, offersBetween_of_le le_rfl⟩, le_rfl⟩
      · rintro ⟨⟨hle, -, -⟩, hge⟩
        exact le_antisymm hle hge

end Checks

section Searches

variable {W : Type} {r : Registry W} {table : GroupTable} {tokens : List Text}
  {first command : ℕ} {commands : List (Command W)} {c : Command W} {log : List Evaluation}
  {answer : Except Fault (Option ℕ)}

/-- Resolving comes to the position of a command: no earlier command accepts the tokens,
the command has no more fixed tokens than there are, and the tokens before the position
are aliases at theirs. -/
def Registry.ComesTo (r : Registry W) (table : GroupTable) (tokens : List Text)
    (command position : ℕ) : Prop :=
  (∀ earlier < command, ¬r.Accepts table tokens earlier) ∧
    ∃ c, r.commands[command]? = some c ∧ c.fixed ≤ tokens.length ∧ position < c.fixed ∧
      ∀ q < position, ∀ token, tokens[q]? = some token → Offers table q command token

theorem Checks.accepts_iff {accepted : Bool}
    (h : Checks command tokens c.fixed 0 log (.ok accepted))
    (hc : r.commands[command]? = some c) (hlength : c.fixed ≤ tokens.length)
    (htable : ∀ e ∈ log, e.AgreesWith table) :
    accepted = true ↔ r.Accepts table tokens command := by
  rw [h.accepted_iff htable rfl, Registry.accepts_iff hc, Nat.zero_add, OffersBetween]
  simp only [hlength, Nat.zero_le, true_imp_iff, true_and]

theorem Checks.not_accepts (h : Checks command tokens c.fixed 0 log (.ok false))
    (hc : r.commands[command]? = some c) (hlength : c.fixed ≤ tokens.length)
    (htable : ∀ e ∈ log, e.AgreesWith table) : ¬r.Accepts table tokens command := by
  rw [← h.accepts_iff hc hlength htable]
  exact Bool.false_ne_true

theorem Registry.not_accepts_of_length_lt (hc : r.commands[command]? = some c)
    (hlength : tokens.length < c.fixed) : ¬r.Accepts table tokens command := by
  rw [accepts_iff hc]
  exact fun haccepts => absurd haccepts.1 (not_le_of_gt hlength)

/-- A command that is checked is evaluated where resolving comes to it. -/
theorem Checks.hasDue {index : ℕ} {answer : Except Fault Bool}
    (h : Checks index tokens c.fixed 0 log answer)
    (hc : r.commands[index]? = some c) (hlength : c.fixed ≤ tokens.length)
    (htable : ∀ e ∈ log, e.AgreesWith table)
    (hearlier : ∀ earlier < index, ¬r.Accepts table tokens earlier) :
    HasDue searchOrder log fun command position =>
      command = index ∧ r.ComesTo table tokens command position := by
  intro command p
  beta_reduce
  by_cases hcommand : command = index
  · subst hcommand
    have hcomes : r.ComesTo table tokens command p ↔
        0 ≤ p ∧ p < 0 + c.fixed ∧ OffersBetween table tokens command 0 p := by
      simp only [Registry.ComesTo, hc, Option.some.injEq, exists_eq_left', hlength, OffersBetween,
        Nat.zero_le, Nat.zero_add, true_imp_iff, true_and]
      exact and_iff_right hearlier
    have hof : ∀ e ∈ log, (e.IsOf command p ↔ e.position = p) :=
      fun e he => and_iff_right (h.isOf_of_mem e he).1
    have hplace : ∀ e ∈ log, (searchOrder command p ≤ searchOrder e.command e.position ↔
        p ≤ e.position) := by
      intro e he
      rw [searchOrder, searchOrder, Prod.Lex.toLex_le_toLex, (h.isOf_of_mem e he).1]
      simp only [lt_irrefl, false_or, true_and]
    rw [exists_congr fun e => and_congr_right (hof e), h.exists_position_iff htable, hcomes,
      and_iff_right rfl]
    exact and_congr_right fun _ => forall₂_congr fun e he => by rw [hplace e he]
  · refine iff_of_false ?_ fun h => hcommand h.1.1
    rintro ⟨e, he, hof⟩
    exact hcommand (hof.1.symm.trans (h.isOf_of_mem e he).1)

theorem Searches.le_command (h : Searches tokens first commands log answer) :
    ∀ e ∈ log, first ≤ e.command := by
  induction h with
  | exhausted => simp
  | tooLong hlength hrest ih => exact fun e he => Nat.le_of_succ_le (ih e he)
  | refused hlength hchecks hrest ih =>
      refine List.forall_mem_append.mpr ⟨fun e he => ?_, fun e he => Nat.le_of_succ_le (ih e he)⟩
      exact (hchecks.isOf_of_mem e he).1.ge
  | found hlength hchecks => exact fun e he => (hchecks.isOf_of_mem e he).1.ge
  | failed hlength hchecks => exact fun e he => (hchecks.isOf_of_mem e he).1.ge

/-- Evaluations come by increasing command, and by increasing position for a command. -/
theorem Searches.pairwise (h : Searches tokens first commands log answer) :
    log.Pairwise fun a b => a.searchPlace < b.searchPlace := by
  induction h with
  | exhausted => exact List.Pairwise.nil
  | tooLong hlength hrest ih => exact ih
  | refused hlength hchecks hrest ih =>
      refine List.pairwise_append.mpr ⟨hchecks.pairwise, ih, fun a ha b hb => ?_⟩
      apply Prod.Lex.toLex_lt_toLex.mpr
      rw [(hchecks.isOf_of_mem a ha).1]
      exact Or.inl (hrest.le_command b hb)
  | found hlength hchecks => exact hchecks.pairwise
  | failed hlength hchecks => exact hchecks.pairwise

theorem Searches.endsAtFault (h : Searches tokens first commands log answer) :
    EndsAtFault log answer := by
  induction h with
  | exhausted => exact .nil none
  | tooLong hlength hrest ih => exact ih
  | refused hlength hchecks hrest ih => exact hchecks.endsAtFault.append ih
  | found hlength hchecks => exact hchecks.endsAtFault.congr (by simp)
  | failed hlength hchecks => exact hchecks.endsAtFault.congr (by simp)

/-- What a search evaluates is what resolving comes to, up to the first evaluation that
fails. -/
theorem Searches.hasDue (h : Searches tokens first commands log answer)
    (hcommands : r.commands.drop first = commands) (htable : ∀ e ∈ log, e.AgreesWith table)
    (hearlier : ∀ earlier < first, ¬r.Accepts table tokens earlier) :
    HasDue searchOrder log fun command position =>
      first ≤ command ∧ r.ComesTo table tokens command position := by
  induction h with
  | exhausted =>
      intro command position
      have hlength := List.drop_eq_nil_iff.mp hcommands
      simp only [List.not_mem_nil, false_and, exists_false, false_iff]
      rintro ⟨⟨hle, -, c, hc, -⟩, -⟩
      have hlt := (List.getElem?_eq_some_iff.mp hc).1
      omega
  | @tooLong index c rest log answer hlength hrest ih =>
      obtain ⟨hc, hcommands⟩ := getElem?_of_drop_eq_cons hcommands
      have hrefused : ¬r.Accepts table tokens index :=
        Registry.not_accepts_of_length_lt hc hlength
      have hothers := ih hcommands htable (Nat.forall_lt_succ_right.mpr ⟨hearlier, hrefused⟩)
      apply hothers.congr
      refine fun command position _ => ⟨?_, And.imp_left Nat.le_of_succ_le⟩
      rintro ⟨hle, hcomes⟩
      refine ⟨lt_of_le_of_ne hle ?_, hcomes⟩
      rintro rfl
      obtain ⟨-, d, hd, henough, -⟩ := hcomes
      obtain rfl : c = d := Option.some.inj (hc.symm.trans hd)
      exact absurd henough (not_le_of_gt hlength)
  | @refused index c rest front back answer hlength hchecks hrest ih =>
      obtain ⟨hc, hcommands⟩ := getElem?_of_drop_eq_cons hcommands
      obtain ⟨hfront, hback⟩ := List.forall_mem_append.mp htable
      have hrefused := hchecks.not_accepts hc hlength hfront
      have hothers := ih hcommands hback (Nat.forall_lt_succ_right.mpr ⟨hearlier, hrefused⟩)
      have hboth := (hchecks.hasDue hc hlength hfront hearlier).append hothers
        hchecks.endsAtFault.not_fails ?_
      · apply hboth.congr
        intro command position _
        rw [← or_and_right, Nat.le_iff_lt_or_eq, or_comm, eq_comm]
        rfl
      · rintro command position ⟨rfl, -⟩ e he
        exact Prod.Lex.toLex_le_toLex.mpr (Or.inl (hrest.le_command e he))
  | @found index c rest log hlength hchecks =>
      obtain ⟨hc, hcommands⟩ := getElem?_of_drop_eq_cons hcommands
      have haccepts : r.Accepts table tokens index :=
        (hchecks.accepts_iff hc hlength htable).mp rfl
      apply (hchecks.hasDue hc hlength htable hearlier).congr
      refine fun command position _ => and_congr_left fun hcomes => ⟨fun hle => ?_, Eq.ge⟩
      exact le_antisymm (not_lt.mp fun hlt => hcomes.1 index hlt haccepts) hle
  | @failed index c rest log fault hlength hchecks =>
      obtain ⟨hc, hcommands⟩ := getElem?_of_drop_eq_cons hcommands
      obtain ⟨e, he, hfault⟩ := hchecks.endsAtFault.exists_of_error fault rfl
      apply (hchecks.hasDue hc hlength htable hearlier).congr
      refine fun command position hfails => and_congr_left fun _ => ⟨fun hle => ?_, Eq.ge⟩
      have hcommand : e.command = index := (hchecks.isOf_of_mem e he).1
      have hplace := Prod.Lex.toLex_le_toLex.mp (hfails e he ⟨fault, hfault⟩)
      rw [hcommand] at hplace
      exact le_antisymm (hplace.elim le_of_lt fun h => h.1.le) hle

/-- A search that does not fail answers the first command that accepts the tokens. -/
theorem Searches.found_iff (h : Searches tokens first commands log answer)
    (hcommands : r.commands.drop first = commands) (htable : ∀ e ∈ log, e.AgreesWith table)
    (hearlier : ∀ earlier < first, ¬r.Accepts table tokens earlier) {found : Option ℕ}
    (hanswer : answer = .ok found) (j : ℕ) :
    found = some j ↔ r.IsFirstAccepting table tokens j := by
  induction h with
  | exhausted =>
      have hlength := List.drop_eq_nil_iff.mp hcommands
      obtain rfl := Except.ok.inj hanswer
      refine iff_of_false (by simp) ?_
      rintro ⟨haccepts, -⟩
      obtain ⟨c, hc, -⟩ := id haccepts
      have hlt := (List.getElem?_eq_some_iff.mp hc).1
      exact hearlier j (by omega) haccepts
  | @tooLong index c rest log answer hlength hrest ih =>
      obtain ⟨hc, hcommands⟩ := getElem?_of_drop_eq_cons hcommands
      have hrefused : ¬r.Accepts table tokens index :=
        Registry.not_accepts_of_length_lt hc hlength
      exact ih hcommands htable (Nat.forall_lt_succ_right.mpr ⟨hearlier, hrefused⟩) hanswer
  | @refused index c rest front back answer hlength hchecks hrest ih =>
      obtain ⟨hc, hcommands⟩ := getElem?_of_drop_eq_cons hcommands
      obtain ⟨hfront, hback⟩ := List.forall_mem_append.mp htable
      have hrefused := hchecks.not_accepts hc hlength hfront
      exact ih hcommands hback (Nat.forall_lt_succ_right.mpr ⟨hearlier, hrefused⟩) hanswer
  | @found index c rest log hlength hchecks =>
      obtain ⟨hc, hcommands⟩ := getElem?_of_drop_eq_cons hcommands
      have haccepts : r.Accepts table tokens index :=
        (hchecks.accepts_iff hc hlength htable).mp rfl
      have hfirst : r.IsFirstAccepting table tokens index := ⟨haccepts, hearlier⟩
      obtain rfl := Except.ok.inj hanswer
      rw [Option.some.injEq]
      exact ⟨fun h => h ▸ hfirst, hfirst.unique⟩
  | failed hlength hchecks => cases hanswer

end Searches

/-! ## What resolving evaluates -/

namespace Registry

variable {W : Type} {r : Registry W}

/-- Resolving evaluates the positions that it comes to, each once and in their order, up
to the first evaluation that fails.  If none fails, the answer is the first command that
accepts the tokens by the groups that were seen. -/
theorem resolveExact_recorded (hformed : r.WellFormed) (tokens : List Text) (w : W) :
    ∃ log, r.recorded.resolveExact tokens ⟨w, []⟩ = withLog log (r.resolveExact tokens w) ∧
      log.Pairwise (fun a b => a.searchPlace < b.searchPlace) ∧
      (∀ index position, (∃ e ∈ log, e.IsOf index position) ↔
        r.ComesTo (groupsSeen log) tokens index position ∧
          ∀ e ∈ log, e.Fails → searchOrder index position ≤ e.searchPlace) ∧
      ((∀ e ∈ log, ¬e.Fails) → ∃ found w', r.resolveExact tokens w = .ok found w' ∧
        ∀ j, found = some j ↔ r.IsFirstAccepting (groupsSeen log) tokens j) ∧
      ∀ e ∈ log, ∀ fault, e.outcome = .error fault → log.getLast? = some e ∧
        ∃ w', r.resolveExact tokens w = .error fault.duringMatch w' := by
  obtain ⟨log, ⟨own, hsearch, hanswer⟩, hrun⟩ := hformed.records_resolveExact tokens w
  have hordered := hsearch.pairwise
  have htable : ∀ e ∈ log, e.AgreesWith (groupsSeen log) :=
    agreesWith_groupsSeen searchOrder hordered
  have hall : r.commands.drop 0 = r.commands := rfl
  have hnone : ∀ earlier < 0, ¬r.Accepts (groupsSeen log) tokens earlier :=
    fun earlier hlt => absurd hlt (Nat.not_lt_zero earlier)
  refine ⟨log, hrun [], hordered, fun index position => ?_, fun hfine => ?_, ?_⟩
  · have hdue := hsearch.hasDue hall htable hnone index position
    simp only [Nat.zero_le, true_and] at hdue
    exact hdue
  · cases own with
    | error fault =>
        obtain ⟨e, he, hfault⟩ := hsearch.endsAtFault.exists_of_error fault rfl
        exact absurd ⟨fault, hfault⟩ (hfine e he)
    | ok found =>
        obtain ⟨w', hfound⟩ := answerOf_eq_ok_iff.mp hanswer
        exact ⟨found, w', hfound, hsearch.found_iff hall htable hnone rfl⟩
  · intro e he fault hfault
    obtain ⟨hlast, rfl⟩ := hsearch.endsAtFault.of_fault e he fault hfault
    exact ⟨hlast, answerOf_eq_error_iff.mp hanswer⟩

/-- Two commands that read a world that counts the readings: the first one offers the
number of the reading as its second token, and the second one fails at the readings
with an even number. -/
def flickering : Registry ℕ :=
  { commands :=
      [⟨[.fixed [["go".toList]], .live fun count => .ok [[Text.ofNat count]] (count + 1)], 2,
          fun _ => Script.say []⟩,
        ⟨[.live fun count =>
            if count % 2 = 0 then .error (.saying .failure "gone".toList) (count + 1)
            else .ok [["go".toList]] (count + 1)], 1, fun _ => Script.say []⟩]
    literals := [] }

/-- The first command is checked up to its second token, which is another one at this
reading, and then the reading of the second command fails. -/
theorem resolveExact_recorded_flickering :
    flickering.WellFormed ∧
      ∃ log, flickering.recorded.resolveExact ["go".toList, "2".toList] ⟨1, []⟩ =
          withLog log (flickering.resolveExact ["go".toList, "2".toList] 1) ∧
        log.map Evaluation.searchPlace = [toLex (0, 0), toLex (0, 1), toLex (1, 0)] ∧
        flickering.ComesTo (groupsSeen log) ["go".toList, "2".toList] 1 0 ∧
        flickering.resolveExact ["go".toList, "2".toList] 1 =
          .error (.saying .failure "gone".toList) 3 := by
  have hformed : flickering.WellFormed := by decide
  obtain ⟨log, hrun, -, hevaluated, -, -⟩ :=
    resolveExact_recorded hformed ["go".toList, "2".toList] 1
  have hfault : flickering.resolveExact ["go".toList, "2".toList] 1 =
      .error (.saying .failure "gone".toList) 3 := rfl
  have hlog : log = [⟨0, 0, .ok [["go".toList]]⟩, ⟨0, 1, .ok [["1".toList]]⟩,
      ⟨1, 0, .error (.saying .failure "gone".toList)⟩] := by
    rw [← logAfter_withLog log (flickering.resolveExact ["go".toList, "2".toList] 1), ← hrun]
    rfl
  refine ⟨hformed, log, hrun, by rw [hlog]; rfl, ?_, hfault⟩
  have hlast : ∃ e ∈ log, e.IsOf 1 0 := by
    rw [hlog]
    exact ⟨_, List.mem_of_getLast? rfl, rfl, rfl⟩
  exact ((hevaluated 1 0).mp hlast).1

/-- A command whose only token is read from a source that has run dry. -/
def runningDry : Registry Unit :=
  { commands :=
      [⟨[.live fun _ => .error (.silent .exhausted) ()], 1, fun _ => Script.say []⟩]
    literals := [] }

/-- The fault that comes out is not the one of the evaluation. -/
theorem exists_resolveExact_ne_outcome :
    runningDry.WellFormed ∧
      runningDry.recorded.resolveExact ["go".toList] ⟨(), []⟩ =
        .error (.saying .failure "generator raised StopIteration".toList)
          ⟨(), [⟨0, 0, .error (.silent .exhausted)⟩]⟩ ∧
      ¬∃ w', runningDry.resolveExact ["go".toList] () =
        .error (.silent .exhausted) w' := by
  refine ⟨by decide, rfl, ?_⟩
  rintro ⟨w', h⟩
  cases h

end Registry

end AliasConsole
