import AliasConsole.Proofs.Evaluation
import Mathlib.Data.Nat.Find

/-!
# Resolving by fixed tokens

Resolving goes through the commands in their order, and it fails only if the
reading of some candidates does, at a fixed position that the search comes to.
A command accepts a list of tokens if it has no more fixed tokens than the list
and each of them is an alias at its position.  On a registry that always shows
the same groups, resolving finds the first command that accepts the tokens,
whatever world it starts in.
-/

namespace AliasConsole

namespace Registry

variable {W : Type} {r : Registry W} {table : GroupTable}

/-! ## Resolving step by step -/

/-- What a line selects, given the answer for alias commands. -/
def select (r : Registry W) (line : Text) : Option ℕ → Option Selection
  | some index => some (.aliases index)
  | none => (r.resolveLiteral line).map .literal

theorem resolveExact_eq_ok_iff {tokens : List Text} {found : Option ℕ} {w w' : W} :
    r.resolveExact tokens w = .ok found w' ↔
      resolveExactFrom tokens 0 r.commands w = .ok found w' := by
  change EStateM.tryCatch _ _ w = _ ↔ _
  cases hfrom : resolveExactFrom tokens 0 r.commands w with
  | ok a w₁ => simp only [EStateM.tryCatch, hfrom]
  | error fault w₁ =>
      simp only [EStateM.tryCatch, hfrom]
      exact iff_of_false (fun h => by cases h) (fun h => by cases h)

theorem resolveExact_of_error {tokens : List Text} {w after : W} {fault : Fault}
    (h : resolveExactFrom tokens 0 r.commands w = .error fault after) :
    r.resolveExact tokens w = .error fault.duringMatch after := by
  rw [resolveExact, tryCatch_of_error h]
  rfl

theorem resolve_eq_ok_iff {tokens : List Text} {line : Text} {selected : Option Selection}
    {w w' : W} :
    r.resolve tokens line w = .ok selected w' ↔
      ∃ found, r.resolveExact tokens w = .ok found w' ∧ selected = r.select line found := by
  constructor
  · intro h
    rw [resolve] at h
    obtain ⟨found, w₁, hfound, h⟩ := exists_ok_of_bind_ok h
    cases found with
    | none =>
        obtain ⟨rfl, rfl⟩ := EStateM.Result.ok.inj h
        exact ⟨none, hfound, rfl⟩
    | some index =>
        obtain ⟨rfl, rfl⟩ := EStateM.Result.ok.inj h
        exact ⟨some index, hfound, rfl⟩
  · rintro ⟨found, hfound, rfl⟩
    rw [resolve, bind_of_ok hfound]
    cases found <;> rfl

/-- Resolving among two lists of commands, one after the other. -/
theorem resolveExactFrom_append {tokens : List Text} {index : ℕ} {front : List (Command W)}
    (back : List (Command W)) {found : Option ℕ} {w w' : W} :
    resolveExactFrom tokens index front w = .ok found w' →
      resolveExactFrom tokens index (front ++ back) w =
        match found with
        | some i => .ok (some i) w'
        | none => resolveExactFrom tokens (index + front.length) back w' := by
  induction front generalizing index w with
  | nil =>
      intro h
      obtain ⟨rfl, rfl⟩ := EStateM.Result.ok.inj h
      rfl
  | cons c rest ih =>
      intro h
      rw [resolveExactFrom] at h
      obtain ⟨accepted, w₁, haccepts, h⟩ := exists_ok_of_bind_ok h
      rw [List.cons_append, resolveExactFrom, bind_of_ok haccepts]
      cases accepted with
      | true =>
          obtain ⟨rfl, rfl⟩ := EStateM.Result.ok.inj h
          rfl
      | false =>
          have hlength : index + (c :: rest).length = index + 1 + rest.length := by
            rw [List.length_cons]
            omega
          rw [hlength]
          exact ih h

theorem lt_of_resolveExactFrom {tokens : List Text} {index found : ℕ}
    {commands : List (Command W)} {w w' : W}
    (h : resolveExactFrom tokens index commands w = .ok (some found) w') :
    index ≤ found ∧ found < index + commands.length := by
  induction commands generalizing index w with
  | nil => cases h
  | cons c rest ih =>
      rw [resolveExactFrom] at h
      obtain ⟨accepted, w₁, -, h⟩ := exists_ok_of_bind_ok h
      rw [List.length_cons]
      cases accepted with
      | true =>
          obtain ⟨heq, -⟩ := EStateM.Result.ok.inj h
          obtain rfl := Option.some.inj heq
          omega
      | false =>
          have hrest := ih h
          omega

/-! ## Where resolving fails -/

/-- Searching the commands for the tokens fails at one of them: no command before it accepts
the tokens, it accepts the tokens in front of one of its fixed positions, and there the
candidates cannot be read. -/
inductive SearchFails (tokens : List Text) (index : ℕ) (commands : List (Command W)) (w : W)
    (command : ℕ) (fault : Fault) (after : W) : Prop
  | intro {c : Command W} {position : ℕ} {slot : Candidates W} {w₁ w₂ : W}
      (hc : commands[command]? = some c) (hposition : position < c.fixed)
      (hslot : c.slots[position]? = some slot)
      (hrefused : resolveExactFrom tokens index (commands.take command) w = .ok none w₁)
      (haccepted : c.acceptsFrom tokens position 0 w₁ = .ok true w₂)
      (hfails : slot.groups w₂ = .error fault after)

/-- A check of tokens fails at the first position whose candidates cannot be read. -/
theorem exists_groupsAt_of_acceptsFrom_error {c : Command W} {tokens : List Text}
    {count position : ℕ} {w after : W} {fault : Fault}
    (htokens : position + count ≤ tokens.length)
    (h : c.acceptsFrom tokens count position w = .error fault after) :
    ∃ checked < count, ∃ w₁, c.acceptsFrom tokens checked position w = .ok true w₁ ∧
      c.groupsAt (position + checked) w₁ = .error fault after := by
  induction count generalizing position w with
  | zero => cases h
  | succ count ih =>
      have htoken : tokens[position]? = some (tokens.get ⟨position, by omega⟩) :=
        List.getElem?_eq_getElem (by omega)
      rw [Command.acceptsFrom, htoken] at h
      cases hgroups : c.groupsAt position w with
      | error own w₁ =>
          rw [bind_of_error hgroups] at h
          obtain ⟨rfl, rfl⟩ := EStateM.Result.error.inj h
          exact ⟨0, Nat.succ_pos count, w, rfl, hgroups⟩
      | ok groups w₁ =>
          rw [bind_of_ok hgroups] at h
          dsimp only at h
          split_ifs at h with hoffered
          · obtain ⟨checked, hlt, w₂, haccepted, hfails⟩ := ih (by omega) h
            refine ⟨checked + 1, Nat.succ_lt_succ hlt, w₂, ?_, ?_⟩
            · rw [Command.acceptsFrom, bind_of_ok hgroups, htoken]
              dsimp only
              rw [if_pos hoffered]
              exact haccepted
            · rwa [← Nat.add_right_comm, Nat.add_assoc] at hfails
          · cases h

/-- A search fails only at a command, by what its candidates fail by. -/
theorem exists_searchFails {tokens : List Text} {index : ℕ} {commands : List (Command W)}
    (hformed : ∀ c ∈ commands, c.fixed ≤ c.slots.length) {w after : W} {fault : Fault}
    (h : resolveExactFrom tokens index commands w = .error fault after) :
    ∃ command < commands.length, SearchFails tokens index commands w command fault after := by
  induction commands generalizing index w with
  | nil => cases h
  | cons c rest ih =>
      obtain ⟨hfixed, hothers⟩ := List.forall_mem_cons.mp hformed
      rw [resolveExactFrom] at h
      cases haccepts : c.accepts tokens w with
      | error own w₁ =>
          rw [bind_of_error haccepts] at h
          obtain ⟨rfl, rfl⟩ := EStateM.Result.error.inj h
          rw [Command.accepts] at haccepts
          split_ifs at haccepts with hlength
          · cases haccepts
          · obtain ⟨position, hposition, w₂, haccepted, hfails⟩ :=
              exists_groupsAt_of_acceptsFrom_error (by omega) haccepts
            have hslot : c.slots[position]? = some (c.slots.get ⟨position, by omega⟩) :=
              List.getElem?_eq_getElem (by omega)
            rw [Nat.zero_add, groupsAt_of_getElem? hslot] at hfails
            exact ⟨0, Nat.succ_pos _, .intro rfl hposition hslot rfl haccepted hfails⟩
      | ok accepted w₁ =>
          rw [bind_of_ok haccepts] at h
          cases accepted with
          | true => cases h
          | false =>
              obtain ⟨command, hlt, ⟨hc, hposition, hslot, hrefused, haccepted, hfails⟩⟩ :=
                ih hothers h
              refine ⟨command + 1, Nat.succ_lt_succ hlt,
                .intro hc hposition hslot ?_ haccepted hfails⟩
              rw [List.take_succ_cons, resolveExactFrom, bind_of_ok haccepts]
              exact hrefused

theorem SearchFails.of_take {tokens : List Text} {index count command : ℕ}
    {commands : List (Command W)} {w after : W} {fault : Fault} (hlt : command < count)
    (h : SearchFails tokens index (commands.take count) w command fault after) :
    SearchFails tokens index commands w command fault after := by
  obtain ⟨hc, hposition, hslot, hrefused, haccepted, hfails⟩ := h
  rw [List.getElem?_take_of_lt hlt] at hc
  rw [List.take_take, Nat.min_eq_left (Nat.le_of_lt hlt)] at hrefused
  exact .intro hc hposition hslot hrefused haccepted hfails

theorem resolveExactFrom_append_of_error {tokens : List Text} {index : ℕ}
    {front : List (Command W)} (back : List (Command W)) {fault : Fault} {w after : W}
    (h : resolveExactFrom tokens index front w = .error fault after) :
    resolveExactFrom tokens index (front ++ back) w = .error fault after := by
  induction front generalizing index w with
  | nil => cases h
  | cons c rest ih =>
      rw [resolveExactFrom] at h
      rw [List.cons_append, resolveExactFrom]
      cases haccepts : c.accepts tokens w with
      | error own w₁ => rwa [bind_of_error haccepts] at h ⊢
      | ok accepted w₁ =>
          rw [bind_of_ok haccepts] at h ⊢
          cases accepted with
          | true => cases h
          | false => exact ih h

theorem NeverFails.resolveExact (hfail : r.NeverFails) (hformed : r.WellFormed)
    (tokens : List Text) : AlwaysSucceeds (r.resolveExact tokens) := by
  intro w
  cases hsearch : resolveExactFrom tokens 0 r.commands w with
  | ok found after => exact ⟨found, after, resolveExact_eq_ok_iff.mpr hsearch⟩
  | error fault after =>
      obtain ⟨command, -, ⟨hc, -, hslot, -, -, hfails⟩⟩ := exists_searchFails hformed hsearch
      obtain ⟨groups, w', hok⟩ :=
        hfail _ (List.mem_of_getElem? hc) _ (List.mem_of_getElem? hslot) _
      rw [hfails] at hok
      cases hok

/-- If a command accepts the tokens in every world, the search ends at it or before it:
with a command, or by a fault of candidates. -/
theorem exists_resolveExact_le_or_searchFails (hformed : r.WellFormed) {index : ℕ}
    {c : Command W} (hc : r.commands[index]? = some c) {tokens : List Text}
    (haccepts : AlwaysGives (c.accepts tokens) true) (w : W) :
    (∃ j ≤ index, ∃ after, r.resolveExact tokens w = .ok (some j) after) ∨
      ∃ earlier < index, ∃ fault after,
        SearchFails tokens 0 r.commands w earlier fault after ∧
          r.resolveExact tokens w = .error fault.duringMatch after := by
  have hsplit : r.commands = r.commands.take index ++ c :: r.commands.drop (index + 1) := by
    obtain ⟨hlt, rfl⟩ := List.getElem?_eq_some_iff.mp hc
    rw [← List.drop_eq_getElem_cons hlt, List.take_append_drop]
  have hlength : (r.commands.take index).length = index :=
    List.length_take_of_le (Nat.le_of_lt (List.getElem?_eq_some_iff.mp hc).1)
  cases hfront : resolveExactFrom tokens 0 (r.commands.take index) w with
  | error fault after =>
      right
      have hfixed : ∀ d ∈ r.commands.take index, d.fixed ≤ d.slots.length :=
        fun d hd => hformed d (List.mem_of_mem_take hd)
      obtain ⟨earlier, hlt, hfails⟩ := exists_searchFails hfixed hfront
      rw [hlength] at hlt
      have hall := resolveExactFrom_append_of_error (c :: r.commands.drop (index + 1)) hfront
      rw [← hsplit] at hall
      exact ⟨earlier, hlt, fault, after, hfails.of_take hlt, resolveExact_of_error hall⟩
  | ok found w₁ =>
      left
      have hall := resolveExactFrom_append (c :: r.commands.drop (index + 1)) hfront
      rw [← hsplit, hlength, Nat.zero_add] at hall
      cases found with
      | some j =>
          have hj := (lt_of_resolveExactFrom hfront).2
          rw [Nat.zero_add, hlength] at hj
          exact ⟨j, Nat.le_of_lt hj, w₁, resolveExact_eq_ok_iff.mpr hall⟩
      | none =>
          obtain ⟨after, hafter⟩ := haccepts w₁
          refine ⟨index, le_rfl, after, resolveExact_eq_ok_iff.mpr (hall.trans ?_)⟩
          dsimp only
          rw [resolveExactFrom, bind_of_ok hafter]
          rfl

/-! ## The first command that accepts the tokens -/

/-- The fixed tokens of the command are aliases at their positions. -/
def Accepts (r : Registry W) (table : GroupTable) (tokens : List Text) (index : ℕ) : Prop :=
  ∃ c, r.commands[index]? = some c ∧ c.fixed ≤ tokens.length ∧
    ∀ position < c.fixed, ∀ token, tokens[position]? = some token →
      Offers table position index token

theorem accepts_iff {tokens : List Text} {index : ℕ} {c : Command W}
    (hc : r.commands[index]? = some c) :
    r.Accepts table tokens index ↔ c.fixed ≤ tokens.length ∧
      ∀ position < c.fixed, ∀ token, tokens[position]? = some token →
        Offers table position index token := by
  constructor
  · rintro ⟨d, hd, h⟩
    obtain rfl : c = d := Option.some.inj (hc.symm.trans hd)
    exact h
  · exact fun h => ⟨c, hc, h⟩

/-- The index is that of the first command that accepts the tokens. -/
def IsFirstAccepting (r : Registry W) (table : GroupTable) (tokens : List Text)
    (index : ℕ) : Prop :=
  r.Accepts table tokens index ∧ ∀ earlier < index, ¬r.Accepts table tokens earlier

theorem IsFirstAccepting.unique {tokens : List Text} {i j : ℕ}
    (hi : r.IsFirstAccepting table tokens i) (hj : r.IsFirstAccepting table tokens j) :
    i = j := by
  rcases Nat.lt_trichotomy i j with hij | heq | hji
  · exact absurd hi.1 (hj.2 i hij)
  · exact heq
  · exact absurd hj.1 (hi.2 j hji)

theorem exists_alwaysGives_acceptsFrom (hshows : r.Shows table) {index : ℕ}
    {c : Command W} (hc : r.commands[index]? = some c) {tokens : List Text}
    {count position : ℕ} (hslots : position + count ≤ c.slots.length)
    (htokens : position + count ≤ tokens.length) :
    ∃ accepted, AlwaysGives (c.acceptsFrom tokens count position) accepted ∧
      (accepted = true ↔ ∀ p, position ≤ p → p < position + count →
        ∀ token, tokens[p]? = some token → Offers table p index token) := by
  induction count generalizing position with
  | zero =>
      refine ⟨true, AlwaysGives.pure true, ?_⟩
      simp only [true_iff]
      intro p hle hlt
      omega
  | succ count ih =>
      have hgroups := hshows index c hc position (by omega)
      have htoken : tokens[position]? = some tokens[position] :=
        List.getElem?_eq_getElem (by omega)
      by_cases hhere : Offers table position index tokens[position]
      · have hnextSlots : position + 1 + count ≤ c.slots.length := by omega
        have hnextTokens : position + 1 + count ≤ tokens.length := by omega
        obtain ⟨accepted, hrest, hiff⟩ := ih hnextSlots hnextTokens
        refine ⟨accepted, ?_, ?_⟩
        · rw [Command.acceptsFrom]
          refine hgroups.bind ?_
          simp only [htoken]
          rw [if_pos (by simpa [Offers] using hhere)]
          exact hrest
        · rw [hiff]
          constructor
          · intro hall p hle hlt
            rcases Nat.eq_or_lt_of_le hle with rfl | hgt
            · intro t ht
              rw [htoken] at ht
              rwa [← Option.some.inj ht]
            · exact hall p hgt (by omega)
          · intro hall p hle hlt
            exact hall p (by omega) (by omega)
      · refine ⟨false, ?_, ?_⟩
        · rw [Command.acceptsFrom]
          refine hgroups.bind ?_
          simp only [htoken]
          rw [if_neg (by simpa [Offers] using hhere)]
          exact AlwaysGives.pure false
        · simp only [Bool.false_eq_true, false_iff]
          intro hall
          exact hhere (hall position le_rfl (by omega) _ htoken)

theorem exists_alwaysGives_accepts (hshows : r.Shows table) (hformed : r.WellFormed)
    {index : ℕ} {c : Command W} (hc : r.commands[index]? = some c) (tokens : List Text) :
    ∃ accepted, AlwaysGives (c.accepts tokens) accepted ∧
      (accepted = true ↔ r.Accepts table tokens index) := by
  rw [accepts_iff hc]
  by_cases hlength : tokens.length < c.fixed
  · refine ⟨false, ?_, ?_⟩
    · rw [Command.accepts, if_pos hlength]
      exact AlwaysGives.pure false
    · simp only [Bool.false_eq_true, false_iff]
      exact fun h => absurd h.1 (not_le_of_gt hlength)
  · have hslots : 0 + c.fixed ≤ c.slots.length := by
      simpa using hformed c (List.mem_of_getElem? hc)
    have htokens : 0 + c.fixed ≤ tokens.length := by
      simpa using hlength
    obtain ⟨accepted, halways, hiff⟩ :=
      exists_alwaysGives_acceptsFrom hshows hc hslots htokens
    refine ⟨accepted, ?_, ?_⟩
    · rw [Command.accepts, if_neg hlength]
      exact halways
    · rw [hiff]
      simp only [Nat.zero_le, true_implies, Nat.zero_add]
      exact ⟨fun h => ⟨not_lt.mp hlength, h⟩, And.right⟩

/-- Resolving among the commands from an index on finds the first of them that
accepts the tokens. -/
theorem exists_alwaysGives_resolveExactFrom (hshows : r.Shows table)
    (hformed : r.WellFormed) (tokens : List Text) {index : ℕ}
    {commands : List (Command W)} (hcommands : r.commands.drop index = commands)
    (hearlier : ∀ earlier < index, ¬r.Accepts table tokens earlier) :
    ∃ found, AlwaysGives (resolveExactFrom tokens index commands) found ∧
      ∀ j, found = some j ↔ r.IsFirstAccepting table tokens j := by
  induction commands generalizing index with
  | nil =>
      refine ⟨none, AlwaysGives.pure none, ?_⟩
      intro j
      constructor
      · intro h
        cases h
      · rintro ⟨haccepts, -⟩
        obtain ⟨c, hc, -⟩ := id haccepts
        have hlt := (List.getElem?_eq_some_iff.mp hc).1
        have hle := List.drop_eq_nil_iff.mp hcommands
        exact absurd haccepts (hearlier j (by omega))
  | cons c rest ih =>
      obtain ⟨hc, hcommandsRest⟩ := getElem?_of_drop_eq_cons hcommands
      obtain ⟨accepted, halways, hiff⟩ := exists_alwaysGives_accepts hshows hformed hc tokens
      cases accepted with
      | true =>
          have hfirst : r.IsFirstAccepting table tokens index := ⟨hiff.mp rfl, hearlier⟩
          refine ⟨some index, halways.bind (AlwaysGives.pure (some index)), ?_⟩
          intro j
          constructor
          · rintro ⟨⟩
            exact hfirst
          · intro hj
            rw [hfirst.unique hj]
      | false =>
          obtain ⟨found, hrest, hfound⟩ := ih hcommandsRest (by
            intro earlier hle
            rcases Nat.lt_succ_iff_lt_or_eq.mp hle with hlt | rfl
            · exact hearlier earlier hlt
            · exact fun haccepts => absurd (hiff.mpr haccepts) (by simp))
          exact ⟨found, halways.bind hrest, hfound⟩

/-- Resolving finds the first command that accepts the tokens. -/
theorem exists_alwaysGives_resolveExact (hshows : r.Shows table) (hformed : r.WellFormed)
    (tokens : List Text) :
    ∃ found, AlwaysGives (r.resolveExact tokens) found ∧
      ∀ j, found = some j ↔ r.IsFirstAccepting table tokens j := by
  have hall : r.commands.drop 0 = r.commands := rfl
  obtain ⟨found, halways, hfound⟩ :=
    exists_alwaysGives_resolveExactFrom hshows hformed tokens hall (by simp)
  refine ⟨found, ?_, hfound⟩
  intro w
  obtain ⟨w', hw⟩ := halways w
  exact ⟨w', resolveExact_eq_ok_iff.mpr hw⟩

theorem accepts_of_resolveExact (hshows : r.Shows table) (hformed : r.WellFormed)
    {tokens : List Text} {index : ℕ} {w w' : W}
    (h : r.resolveExact tokens w = .ok (some index) w') :
    r.Accepts table tokens index := by
  obtain ⟨found, halways, hfound⟩ := exists_alwaysGives_resolveExact hshows hformed tokens
  exact ((hfound index).mp (halways.eq_of_ok h).symm).1

/-- If a command accepts the tokens, resolving answers it or an earlier one. -/
theorem Accepts.exists_resolveExact_le (hshows : r.Shows table)
    (hformed : r.WellFormed) {tokens : List Text} {index : ℕ}
    (h : r.Accepts table tokens index) :
    ∃ j ≤ index, AlwaysGives (r.resolveExact tokens) (some j) := by
  classical
  obtain ⟨found, halways, hfound⟩ := exists_alwaysGives_resolveExact hshows hformed tokens
  have hexists : ∃ j, r.Accepts table tokens j := ⟨index, h⟩
  have hfirst : r.IsFirstAccepting table tokens (Nat.find hexists) :=
    ⟨Nat.find_spec hexists, fun earlier hlt => Nat.find_min hexists hlt⟩
  refine ⟨Nat.find hexists, Nat.find_min' hexists h, ?_⟩
  rw [← (hfound _).mpr hfirst]
  exact halways

end Registry

end AliasConsole
