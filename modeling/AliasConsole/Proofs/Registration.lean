import AliasConsole.Proofs.Evaluation

/-!
# Growing registries

A request to register a command is refused, and then nothing changes, or it
appends one command.  So a registry extends itself by any number of requests,
and whatever is registered, no command has more fixed tokens than positions and
no literal is blank.
-/

namespace AliasConsole.Registry

variable {W : Type}

/-- The registry after a request that is granted or refused. -/
def offer (r : Registry W) (request : Registration W (Script W)) : Registry W :=
  match r.register request with
  | .ok next => next
  | .error _ => r

/-- The registry after requests one after the other. -/
def offerAll (r : Registry W) (requests : List (Registration W (Script W))) : Registry W :=
  requests.foldl offer r

/-- Requests lead from the empty registry to this one. -/
def Reachable (r : Registry W) : Prop := ∃ requests, r = empty.offerAll requests

/-- All commands of the first registry stand at their places in the second one,
new commands behind them. -/
structure Extends (r r' : Registry W) : Prop where
  commands : r.commands <+: r'.commands
  literals : r.literals <+: r'.literals

variable {r r' : Registry W} {request : Registration W (Script W)}

theorem Extends.refl (r : Registry W) : r.Extends r :=
  ⟨List.prefix_refl _, List.prefix_refl _⟩

theorem Extends.trans {r'' : Registry W} (h : r.Extends r') (h' : r'.Extends r'') :
    r.Extends r'' :=
  ⟨h.commands.trans h'.commands, h.literals.trans h'.literals⟩

theorem Extends.size_le (h : r.Extends r') : r.size ≤ r'.size :=
  Nat.add_le_add h.commands.length_le h.literals.length_le

theorem Extends.getElem?_commands (h : r.Extends r') {index : ℕ}
    (hindex : index < r.commands.length) : r'.commands[index]? = r.commands[index]? := by
  rw [List.prefix_iff_getElem?.mp h.commands index hindex, List.getElem?_eq_getElem hindex]

theorem Extends.getElem?_literals (h : r.Extends r') {index : ℕ}
    (hindex : index < r.literals.length) : r'.literals[index]? = r.literals[index]? := by
  rw [List.prefix_iff_getElem?.mp h.literals index hindex, List.getElem?_eq_getElem hindex]

/-- The answer to a request.  Alias commands need candidates for every position
and a count of fixed tokens from zero to the number of positions, literals need a
text that is not blank; then one entry is appended.  Otherwise the answer says
what is wrong. -/
inductive Answers (r : Registry W) :
    Registration W (Script W) → Except Fault (Registry W) → Prop
  | command {slots : List (SlotArgument W)} {fixed : Option Int} {callback : Callback W}
      {candidates : List (Candidates W)} {count : ℕ}
      (hslots : SlotArgument.coerceAll slots = .ok candidates)
      (hcount : (count : Int) = fixed.getD candidates.length)
      (hle : count ≤ candidates.length) :
      Answers r (.aliases slots fixed callback)
        (.ok { r with commands := r.commands ++ [⟨candidates, count, callback⟩] })
  | literal {text : Text} {callback : Callback W} (htext : ∃ c ∈ text, isBlank c = false) :
      Answers r (.literal text callback)
        (.ok { r with literals := r.literals ++ [⟨text, callback⟩] })
  | unusable {slots : List (SlotArgument W)} {fixed : Option Int} {callback : Callback W}
      {fault : Fault} (hslots : SlotArgument.coerceAll slots = .error fault) :
      Answers r (.aliases slots fixed callback) (.error fault)
  | badCount {slots : List (SlotArgument W)} {fixed : Option Int} {callback : Callback W}
      {candidates : List (Candidates W)} {count : Int}
      (hslots : SlotArgument.coerceAll slots = .ok candidates)
      (hcount : count = fixed.getD candidates.length)
      (hbad : count < 0 ∨ candidates.length < count) :
      Answers r (.aliases slots fixed callback) (.error (badFixed count candidates.length))
  | blank {text : Text} {callback : Callback W} (htext : ∀ c ∈ text, isBlank c = true) :
      Answers r (.literal text callback) (.error blankLiteral)

theorem answers_register (r : Registry W) (request : Registration W (Script W)) :
    r.Answers request (r.register request) := by
  cases request with
  | aliases slots fixed callback =>
      rw [register, registerAliases]
      cases hslots : SlotArgument.coerceAll slots with
      | error fault => exact .unusable hslots
      | ok candidates =>
          change r.Answers _ (if _ then _ else _)
          split_ifs with hcount
          · simp only [Bool.or_eq_true, decide_eq_true_eq] at hcount
            exact .badCount hslots rfl hcount
          · simp only [Bool.or_eq_true, decide_eq_true_eq, not_or, Int.not_lt] at hcount
            obtain ⟨hnonneg, hle⟩ := hcount
            have hnat := Int.toNat_of_nonneg hnonneg
            exact .command hslots hnat (by omega)
  | literal text callback =>
      rw [register, registerLiteral]
      split_ifs with hblank
      · exact .blank (List.all_eq_true.mp hblank)
      · refine .literal ?_
        simpa using hblank

/-- A request that is granted appends a command with enough positions, or a
literal that is not blank. -/
theorem register_cases (h : r.register request = .ok r') :
    (∃ c : Command W, c.fixed ≤ c.slots.length ∧
        r' = { r with commands := r.commands ++ [c] }) ∨
      ∃ l : Literal W, (∃ c ∈ l.text, isBlank c = false) ∧
        r' = { r with literals := r.literals ++ [l] } := by
  have hanswer := answers_register r request
  rw [h] at hanswer
  cases hanswer with
  | command hslots hcount hle => exact Or.inl ⟨_, hle, rfl⟩
  | literal htext => exact Or.inr ⟨_, htext, rfl⟩

theorem extends_of_register (h : r.register request = .ok r') : r.Extends r' := by
  rcases register_cases h with ⟨c, -, rfl⟩ | ⟨l, -, rfl⟩
  · exact ⟨List.prefix_append _ _, List.prefix_refl _⟩
  · exact ⟨List.prefix_refl _, List.prefix_append _ _⟩

theorem extends_offer (r : Registry W) (request : Registration W (Script W)) :
    r.Extends (r.offer request) := by
  rw [offer]
  cases h : r.register request with
  | ok next => exact extends_of_register h
  | error fault => exact Extends.refl r

theorem extends_offerAll (r : Registry W) (requests : List (Registration W (Script W))) :
    r.Extends (r.offerAll requests) := by
  induction requests generalizing r with
  | nil => exact Extends.refl r
  | cons request rest ih => exact (extends_offer r request).trans (ih (r.offer request))

theorem WellFormed.of_register (hr : r.WellFormed) (h : r.register request = .ok r') :
    r'.WellFormed := by
  rcases register_cases h with ⟨c, hfixed, rfl⟩ | ⟨l, -, rfl⟩
  · intro d hd
    rcases List.mem_append.mp hd with hd | hd
    · exact hr d hd
    · obtain rfl := List.mem_singleton.mp hd
      exact hfixed
  · exact hr

theorem WellFormed.offer (hr : r.WellFormed) (request : Registration W (Script W)) :
    (r.offer request).WellFormed := by
  rw [Registry.offer]
  cases h : r.register request with
  | ok next => exact hr.of_register h
  | error fault => exact hr

theorem WellFormed.offerAll (hr : r.WellFormed)
    (requests : List (Registration W (Script W))) : (r.offerAll requests).WellFormed := by
  induction requests generalizing r with
  | nil => exact hr
  | cons request rest ih => exact ih (hr.offer request)

/-- Whatever is registered, no command has more fixed tokens than positions. -/
theorem Reachable.wellFormed (h : r.Reachable) : r.WellFormed := by
  obtain ⟨requests, rfl⟩ := h
  have hempty : (empty : Registry W).WellFormed := by simp [WellFormed, empty]
  exact hempty.offerAll requests

end AliasConsole.Registry
