import AliasConsole.Proofs.Evaluation
import Mathlib.Data.List.Basic
import Mathlib.Data.Prod.Lex

/-!
# Recorded evaluations

Which candidates a call evaluates, and in which order, cannot be seen from its answer.
So the candidates of a registry are made to write down every evaluation and what it
gave, in a log that lies beside the world.  A recorded call answers as the call itself
does and does the same to the world.  What it leaves in the log is shown step by step:
an evaluation leaves itself, and one reading after another leaves the two logs, one
behind the other, unless the first reading fails.
-/

namespace AliasConsole

/-- An evaluation of the candidates of a command at a position, and what it gave. -/
structure Evaluation where
  command : ℕ
  position : ℕ
  outcome : Except Fault (List AliasGroup)

namespace Evaluation

/-- The evaluation is one of the candidates of the command at the position. -/
def IsOf (e : Evaluation) (command position : ℕ) : Prop :=
  e.command = command ∧ e.position = position

def Fails (e : Evaluation) : Prop := ∃ fault, e.outcome = .error fault

theorem not_fails_ok (command position : ℕ) (groups : List AliasGroup) :
    ¬Fails ⟨command, position, .ok groups⟩ := by
  rintro ⟨fault, h⟩
  cases h

theorem exists_groups_of_not_fails {e : Evaluation} (h : ¬e.Fails) :
    ∃ groups, e.outcome = .ok groups := by
  cases houtcome : e.outcome with
  | error fault => exact absurd ⟨fault, houtcome⟩ h
  | ok groups => exact ⟨groups, rfl⟩

/-- The evaluation gives the groups that the table has in its place. -/
def AgreesWith (e : Evaluation) (table : GroupTable) : Prop :=
  ∀ groups, e.outcome = .ok groups → table e.position e.command = groups

end Evaluation

/-- The groups that the evaluations of a log gave, none where nothing was evaluated. -/
def groupsSeen (log : List Evaluation) : GroupTable := fun position command =>
  match log.find? fun e => e.command == command && e.position == position with
  | some ⟨_, _, .ok groups⟩ => groups
  | _ => []

/-- If nothing is evaluated twice, because every evaluation has a later place than those
before it, every evaluation of the log agrees with the groups seen. -/
theorem agreesWith_groupsSeen {κ : Type} [Preorder κ] (place : ℕ → ℕ → κ)
    {log : List Evaluation}
    (h : log.Pairwise fun a b => place a.command a.position < place b.command b.position) :
    ∀ e ∈ log, e.AgreesWith (groupsSeen log) := by
  intro e he groups hgroups
  have hfound : (log.find? fun d => d.command == e.command && d.position == e.position) =
      some e := by
    obtain ⟨before, after, rfl⟩ := List.append_of_mem he
    rw [List.find?_eq_some_iff_append]
    refine ⟨by simp, before, after, rfl, fun d hd => ?_⟩
    have hlt := (List.pairwise_append.mp h).2.2 d hd e List.mem_cons_self
    by_contra hsame
    simp only [Bool.not_eq_eq_eq_not, Bool.not_true, Bool.not_eq_false, Bool.and_eq_true,
      beq_iff_eq] at hsame
    rw [hsame.1, hsame.2] at hlt
    exact lt_irrefl _ hlt
  rw [groupsSeen, hfound]
  obtain ⟨command, position, outcome⟩ := e
  obtain rfl : outcome = .ok groups := hgroups
  rfl

/-- A failing evaluation is the last one of the log and its fault is the answer, and
the answer is a fault only if an evaluation fails. -/
structure EndsAtFault {α : Type} (log : List Evaluation) (answer : Except Fault α) : Prop where
  of_fault : ∀ e ∈ log, ∀ fault, e.outcome = .error fault →
    log.getLast? = some e ∧ answer = .error fault
  exists_of_error : ∀ fault, answer = .error fault → ∃ e ∈ log, e.outcome = .error fault

namespace EndsAtFault

variable {α β : Type} {log front back : List Evaluation} {answer : Except Fault α}

theorem nil (a : α) : EndsAtFault [] (.ok a) :=
  ⟨fun _ he => absurd he List.not_mem_nil, fun _ h => by cases h⟩

theorem not_fails {a : α} (h : EndsAtFault log (.ok a)) : ∀ e ∈ log, ¬e.Fails := by
  rintro e he ⟨fault, hfault⟩
  cases (h.of_fault e he fault hfault).2

theorem of_groups (command position : ℕ) (groups : List AliasGroup) (a : α) :
    EndsAtFault [⟨command, position, .ok groups⟩] (.ok a) := by
  refine ⟨fun e he fault hfault => ?_, fun fault h => by cases h⟩
  obtain rfl := List.mem_singleton.mp he
  cases hfault

theorem of_failure (command position : ℕ) (fault : Fault) :
    EndsAtFault [⟨command, position, .error fault⟩] (.error fault : Except Fault α) := by
  constructor
  · intro e he own hfault
    obtain rfl := List.mem_singleton.mp he
    obtain rfl := Except.error.inj hfault
    exact ⟨rfl, rfl⟩
  · intro own h
    obtain rfl := Except.error.inj h
    exact ⟨_, List.mem_singleton_self _, rfl⟩

/-- After evaluations that do not fail come others. -/
theorem append {a : β} (hfront : EndsAtFault front (.ok a)) (hback : EndsAtFault back answer) :
    EndsAtFault (front ++ back) answer := by
  constructor
  · intro e he fault hfault
    rcases List.mem_append.mp he with he | he
    · exact absurd ⟨fault, hfault⟩ (hfront.not_fails e he)
    · obtain ⟨hlast, hanswer⟩ := hback.of_fault e he fault hfault
      exact ⟨by rw [List.getLast?_append, hlast]; rfl, hanswer⟩
  · intro fault hanswer
    obtain ⟨e, he, hfault⟩ := hback.exists_of_error fault hanswer
    exact ⟨e, List.mem_append_right front he, hfault⟩

theorem congr {answer' : Except Fault β} (h : EndsAtFault log answer)
    (hsame : ∀ fault, answer' = .error fault ↔ answer = .error fault) :
    EndsAtFault log answer' := by
  constructor
  · intro e he fault hfault
    obtain ⟨hlast, hanswer⟩ := h.of_fault e he fault hfault
    exact ⟨hlast, (hsame fault).mpr hanswer⟩
  · exact fun fault hanswer => h.exists_of_error fault ((hsame fault).mp hanswer)

theorem map (h : EndsAtFault log answer) (f : α → β) : EndsAtFault log (answer.map f) := by
  apply h.congr
  cases answer <;> simp [Except.map]

end EndsAtFault

/-- The log has the evaluations that are due, up to the first one that fails in the order
of their places. -/
def HasDue {κ : Type} [Preorder κ] (place : ℕ → ℕ → κ) (log : List Evaluation)
    (Due : ℕ → ℕ → Prop) : Prop :=
  ∀ command position, (∃ e ∈ log, e.IsOf command position) ↔ Due command position ∧
    ∀ e ∈ log, e.Fails → place command position ≤ place e.command e.position

namespace HasDue

variable {κ : Type} [Preorder κ] {place : ℕ → ℕ → κ} {log front back : List Evaluation}
  {Due Later : ℕ → ℕ → Prop}

/-- After evaluations that do not fail come others at later places. -/
theorem append (hfront : HasDue place front Due) (hback : HasDue place back Later)
    (hfine : ∀ e ∈ front, ¬e.Fails)
    (hlater : ∀ command position, Due command position →
      ∀ e ∈ back, place command position ≤ place e.command e.position) :
    HasDue place (front ++ back) fun command position =>
      Due command position ∨ Later command position := by
  intro command position
  have hsound : ∀ e ∈ front, e.Fails → place command position ≤ place e.command e.position :=
    fun e he hfails => absurd hfails (hfine e he)
  have hsplit : (∃ e ∈ front ++ back, e.IsOf command position) ↔
      (∃ e ∈ front, e.IsOf command position) ∨ ∃ e ∈ back, e.IsOf command position := by
    simp only [List.mem_append, or_and_right, exists_or]
  rw [hsplit, hfront command position, hback command position, List.forall_mem_append]
  constructor
  · rintro (⟨hdue, hfails⟩ | ⟨hdue, hfails⟩)
    · exact ⟨Or.inl hdue, hfails, fun e he _ => hlater command position hdue e he⟩
    · exact ⟨Or.inr hdue, hsound, hfails⟩
  · rintro ⟨hdue | hdue, hfails, hothers⟩
    · exact Or.inl ⟨hdue, hfails⟩
    · exact Or.inr ⟨hdue, hothers⟩

theorem congr (h : HasDue place log Due)
    (hsame : ∀ command position,
      (∀ e ∈ log, e.Fails → place command position ≤ place e.command e.position) →
        (Later command position ↔ Due command position)) : HasDue place log Later :=
  fun command position => (h command position).trans
    (and_congr_left fun hfails => (hsame command position hfails).symm)

end HasDue

/-! ## Recorded registries -/

/-- A world, and the evaluations so far, oldest first. -/
structure Recorded (W : Type) where
  world : W
  log : List Evaluation

variable {W α β : Type}

/-- The outcome of a reading with a log beside the world. -/
def withLog (log : List Evaluation) :
    EStateM.Result Fault W α → EStateM.Result Fault (Recorded W) α
  | .ok a w => .ok a ⟨w, log⟩
  | .error fault w => .error fault ⟨w, log⟩

/-- The log after a recorded reading. -/
def logAfter : EStateM.Result Fault (Recorded W) α → List Evaluation
  | .ok _ s => s.log
  | .error _ s => s.log

theorem logAfter_withLog (log : List Evaluation) (x : EStateM.Result Fault W α) :
    logAfter (withLog log x) = log := by
  cases x <;> rfl

/-- What a reading answers, whatever it does to the world. -/
def answerOf : EStateM.Result Fault W α → Except Fault α
  | .ok a _ => .ok a
  | .error fault _ => .error fault

theorem answerOf_eq_ok_iff {x : EStateM.Result Fault W α} {a : α} :
    answerOf x = .ok a ↔ ∃ w, x = .ok a w := by
  cases x <;> simp [answerOf]

theorem answerOf_eq_error_iff {x : EStateM.Result Fault W α} {fault : Fault} :
    answerOf x = .error fault ↔ ∃ w, x = .error fault w := by
  cases x <;> simp [answerOf]

/-- Candidates that write down what every evaluation of them gives. -/
def Candidates.recorded (command position : ℕ) (slot : Candidates W) :
    Candidates (Recorded W) :=
  .live fun s =>
    let result := slot.groups s.world
    withLog (s.log ++ [⟨command, position, answerOf result⟩]) result

/-- A command with recorded candidates, which does nothing itself. -/
def Command.recorded (command : ℕ) (c : Command W) : Command (Recorded W) :=
  ⟨c.slots.mapIdx (Candidates.recorded command), c.fixed, fun _ => .reply .null⟩

/-- The registry with all its candidates recorded. -/
def Registry.recorded (r : Registry W) : Registry (Recorded W) :=
  ⟨r.commands.mapIdx Command.recorded, r.literals.map fun l => ⟨l.text, fun _ => .reply .null⟩⟩

/-- The recorded reading does what the reading does, and what it adds to the log is in
the relation to the answer. -/
def Records (recorded : Reads (Recorded W) α) (x : Reads W α)
    (P : List Evaluation → Except Fault α → Prop) : Prop :=
  ∀ w, ∃ log, P log (answerOf (x w)) ∧
    ∀ before, recorded ⟨w, before⟩ = withLog (before ++ log) (x w)

namespace Records

variable {x' : Reads (Recorded W) α} {x : Reads W α} {f' : α → Reads (Recorded W) β}
  {f : α → Reads W β} {P : List Evaluation → Except Fault α → Prop}
  {Q : List Evaluation → Except Fault β → Prop}

theorem pure {a : α} (h : P [] (.ok a)) :
    Records (Pure.pure a : Reads (Recorded W) α) (Pure.pure a : Reads W α) P := by
  intro w
  refine ⟨[], h, fun before => ?_⟩
  rw [List.append_nil]
  rfl

/-- One reading after another adds the one log and then the other, and only the one if
the first reading fails. -/
theorem bind (hx : Records x' x P)
    (hok : ∀ a front, P front (.ok a) →
      Records (f' a) (f a) fun back answer => Q (front ++ back) answer)
    (herror : ∀ fault log, P log (.error fault) → Q log (.error fault)) :
    Records (x' >>= f') (x >>= f) Q := by
  intro w
  obtain ⟨front, hfront, hrun⟩ := hx w
  cases hfirst : x w with
  | ok a w₁ =>
      rw [hfirst] at hfront hrun
      obtain ⟨back, hback, hrest⟩ := hok a front hfront w₁
      refine ⟨front ++ back, ?_, fun before => ?_⟩
      · rwa [bind_of_ok hfirst]
      · rw [bind_of_ok (hrun before), bind_of_ok hfirst, hrest, List.append_assoc]
  | error fault w₁ =>
      rw [hfirst] at hfront hrun
      refine ⟨front, ?_, fun before => ?_⟩
      · rw [bind_of_error hfirst]
        exact herror fault front hfront
      · rw [bind_of_error (hrun before), bind_of_error hfirst]
        rfl

theorem tryCatch_throw (hx : Records x' x P) (change : Fault → Fault) :
    Records (tryCatch x' fun fault => throw (change fault))
      (tryCatch x fun fault => throw (change fault))
      fun log answer => ∃ own, P log own ∧ answer = own.mapError change := by
  intro w
  obtain ⟨log, hlog, hrun⟩ := hx w
  cases h : x w with
  | ok a w₁ =>
      rw [h] at hlog hrun
      refine ⟨log, ⟨.ok a, hlog, ?_⟩, fun before => ?_⟩
      · rw [tryCatch_of_ok h]
        rfl
      · rw [tryCatch_of_ok (hrun before), tryCatch_of_ok h]
        rfl
  | error fault w₁ =>
      rw [h] at hlog hrun
      refine ⟨log, ⟨.error fault, hlog, ?_⟩, fun before => ?_⟩
      · rw [tryCatch_of_error h]
        rfl
      · rw [tryCatch_of_error (hrun before), tryCatch_of_error h]
        rfl

theorem bind_pure {Q : List Evaluation → Except Fault β → Prop} (hx : Records x' x P)
    (g : α → β) (h : ∀ log answer, P log answer → Q log (answer.map g)) :
    Records (x' >>= fun a => Pure.pure (g a)) (x >>= fun a => Pure.pure (g a)) Q := by
  apply hx.bind
  · intro a front hfront
    apply Records.pure
    rw [List.append_nil]
    exact h front (.ok a) hfront
  · exact fun fault log hlog => h log (.error fault) hlog

theorem imp {P' : List Evaluation → Except Fault α → Prop} (hx : Records x' x P)
    (h : ∀ log answer, P log answer → P' log answer) : Records x' x P' := by
  intro w
  obtain ⟨log, hlog, hrun⟩ := hx w
  exact ⟨log, h log _ hlog, hrun⟩

end Records

theorem Command.records_groupsAt (command : ℕ) {c : Command W} {position : ℕ}
    (h : position < c.slots.length) :
    Records ((c.recorded command).groupsAt position) (c.groupsAt position)
      fun log answer => log = [⟨command, position, answer⟩] := by
  have hslot : c.slots[position]? = some c.slots[position] := List.getElem?_eq_getElem h
  have hrecorded : (c.recorded command).slots[position]? =
      some (c.slots[position].recorded command position) := by
    rw [recorded, List.getElem?_mapIdx, hslot, Option.map_some]
  rw [groupsAt_of_getElem? hrecorded, groupsAt_of_getElem? hslot]
  exact fun w => ⟨_, rfl, fun before => rfl⟩

end AliasConsole
