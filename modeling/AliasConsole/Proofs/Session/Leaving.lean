import AliasConsole.Proofs.Session.Behaving
import AliasConsole.Proofs.Session.Events

/-!
# Faults that leave a console

Three kinds of faults leave a key or a submitted line: one that no command may
swallow, a fault of live candidates, and the fault of a reply that cannot be printed.
Whatever else a command does wrong is answered.
-/

namespace AliasConsole

variable {W : Type}

section Reading

variable {α β : Type} {P : Fault → Prop}

/-- All faults of the reading have the property. -/
def FailsOnlyBy (P : Fault → Prop) (x : Reads W α) : Prop :=
  ∀ w fault w', x w = .error fault w' → P fault

theorem FailsOnlyBy.pure (a : α) : FailsOnlyBy P (pure a : Reads W α) :=
  nofun

theorem FailsOnlyBy.bind {x : Reads W α} {f : α → Reads W β} (hx : FailsOnlyBy P x)
    (hf : ∀ a, FailsOnlyBy P (f a)) : FailsOnlyBy P (x >>= f) := by
  intro w fault w' h
  cases hfirst : x w with
  | ok a after =>
      rw [bind_of_ok hfirst] at h
      exact hf a after fault w' h
  | error own after =>
      rw [bind_of_error hfirst] at h
      obtain ⟨rfl, -⟩ := EStateM.Result.error.inj h
      exact hx w own after hfirst

/-- What always succeeds adds no faults to what comes before it. -/
theorem bind_eq_error_iff {x : Reads W α} {f : α → Reads W β} {w : W} {fault : Fault}
    (hf : ∀ a, AlwaysSucceeds (f a)) :
    (∃ w', (x >>= f) w = .error fault w') ↔ ∃ w', x w = .error fault w' := by
  cases h : x w with
  | ok a after =>
      obtain ⟨b, w', hb⟩ := hf a after
      rw [bind_of_ok h, hb]
      exact iff_of_false nofun nofun
  | error own after =>
      rw [bind_of_error h]
      simp only [EStateM.Result.error.injEq]

end Reading

/-- Some candidates of the registry fail by the fault in some world. -/
def Registry.MayFail (r : Registry W) (fault : Fault) : Prop :=
  ∃ c ∈ r.commands, ∃ slot ∈ c.slots, ∃ w w', slot.groups w = .error fault w'

section Candidates

variable {r : Registry W} {c : Command W} {P : Fault → Prop}

theorem failsOnlyBy_groupsAt {position : ℕ} (h : ∀ slot ∈ c.slots, FailsOnlyBy P slot.groups)
    (hposition : position < c.slots.length) : FailsOnlyBy P (c.groupsAt position) := by
  rw [groupsAt_of_getElem? (List.getElem?_eq_getElem hposition)]
  exact h _ (List.getElem_mem hposition)

theorem failsOnlyBy_resolveExactFrom {commands : List (Command W)}
    (h : ∀ c ∈ commands, ∀ slot ∈ c.slots, FailsOnlyBy P slot.groups)
    (hformed : ∀ c ∈ commands, c.fixed ≤ c.slots.length) (tokens : List Text) (index : ℕ) :
    FailsOnlyBy P (Registry.resolveExactFrom tokens index commands) := by
  intro w fault after hsearch
  obtain ⟨command, -, ⟨hc, -, hslot, -, -, hfails⟩⟩ :=
    Registry.exists_searchFails hformed hsearch
  exact h _ (List.mem_of_getElem? hc) _ (List.mem_of_getElem? hslot) _ _ _ hfails

theorem failsOnlyBy_evaluateAt {limited : Bool} {position : ℕ} {entries : List (Entry W)}
    (h : ∀ e ∈ entries, ∀ slot ∈ e.1.slots, FailsOnlyBy P slot.groups)
    (hreach : ∀ e ∈ entries, e.1.reach limited ≤ e.1.slots.length) :
    FailsOnlyBy P (evaluateAt limited position entries) := by
  induction entries with
  | nil => exact .pure []
  | cons e rest ih =>
      obtain ⟨he, hrest⟩ := List.forall_mem_cons.mp h
      obtain ⟨hhere, hthere⟩ := List.forall_mem_cons.mp hreach
      rw [evaluateAt]
      split_ifs with hposition
      · refine (failsOnlyBy_groupsAt he (Nat.lt_of_lt_of_le hposition hhere)).bind fun groups => ?_
        exact (ih hrest hthere).bind fun _ => .pure _
      · exact ih hrest hthere

theorem failsOnlyBy_narrowFrom {limited : Bool} {position : ℕ} {entries : List (Entry W)}
    (h : ∀ e ∈ entries, ∀ slot ∈ e.1.slots, FailsOnlyBy P slot.groups)
    (hreach : ∀ e ∈ entries, e.1.reach limited ≤ e.1.slots.length) (tokens : List Text) :
    FailsOnlyBy P (narrowFrom limited position entries tokens) := by
  induction tokens generalizing position entries with
  | nil => exact .pure []
  | cons token rest ih =>
      rw [narrowFrom]
      refine (failsOnlyBy_evaluateAt h hreach).bind fun evaluated => ?_
      refine (ih (fun e he => h e ?_) fun e he => hreach e ?_).bind fun _ => .pure _
      · exact (List.mem_filter.mp he).1
      · exact (List.mem_filter.mp he).1

theorem Registry.mayFail_groups :
    ∀ c ∈ r.commands, ∀ slot ∈ c.slots, FailsOnlyBy r.MayFail slot.groups :=
  fun c hc slot hslot w _ w' h => ⟨c, hc, slot, hslot, w, w', h⟩

theorem Registry.WellFormed.mayFail_of_autocomplete (hr : r.WellFormed)
    {options : CompletionOptions} {line : Text} {w w' : W} {fault : Fault}
    (h : autocomplete r options line w = .error fault w') : r.MayFail fault := by
  have hnarrow : FailsOnlyBy r.MayFail (narrow r options.limitToFixed (tokenize line)) := by
    refine failsOnlyBy_narrowFrom (fun e he => ?_) (fun e he => ?_) _
    · exact mayFail_groups e.1 (List.fst_mem_of_mem_zipIdx he)
    · exact hr.reach_le (List.fst_mem_of_mem_zipIdx he) _
  exact hnarrow.bind (fun _ => .pure _) w fault w' h

/-- Resolving fails by the faults of candidates alone, in the form that they have
during a match. -/
theorem Registry.WellFormed.mayFail_of_resolve (hr : r.WellFormed) {tokens : List Text}
    {line : Text} {w w' : W} {fault : Fault}
    (h : r.resolve tokens line w = .error fault w') :
    ∃ own, r.MayFail own ∧ fault = own.duringMatch := by
  have hexact : FailsOnlyBy (fun fault => ∃ own, r.MayFail own ∧ fault = own.duringMatch)
      (r.resolveExact tokens) := by
    intro w fault w' h
    cases hfrom : resolveExactFrom tokens 0 r.commands w with
    | ok found after =>
        rw [resolveExact_eq_ok_iff.mpr hfrom] at h
        cases h
    | error own after =>
        rw [resolveExact_of_error hfrom] at h
        obtain ⟨rfl, -⟩ := EStateM.Result.error.inj h
        exact ⟨own, failsOnlyBy_resolveExactFrom mayFail_groups hr tokens 0 w own after hfrom, rfl⟩
  refine hexact.bind (fun found => ?_) w fault w' h
  cases found with
  | none => exact .pure _
  | some index => exact .pure _

end Candidates

namespace Session

variable {s : Session W} {line : Text} {fault : Fault} {depth : ℕ}

/-- How a fault leaves a line that is not empty: the line is not resolved, its
command fails by what no command may swallow, or its reply cannot be printed. -/
inductive Leaves (depth : ℕ) (line : Text) (s : Session W) (fault : Fault) : Prop
  | resolving {w : W}
      (hresolve : s.registry.resolve (tokenize line) line s.world = .error fault w)
  | departing {selection : Selection} {w : W} {after : Session W}
      (hresolve : s.registry.resolve (tokenize line) line s.world = .ok (some selection) w)
      (hperform : perform (submitAt depth) (scriptOf s.registry selection (tokenize line))
        (dispatched line selection w s) = .error fault after)
      (hfault : fault.kind.isDeparture = true)
  | printing {selection : Selection} {w : W} {message : Value} {after : Session W}
      (hresolve : s.registry.resolve (tokenize line) line s.world = .ok (some selection) w)
      (hperform : perform (submitAt depth) (scriptOf s.registry selection (tokenize line))
        (dispatched line selection w s) = .ok message after)
      (hmessage : outputLines message = .error fault)

theorem submitAt_eq_error_iff (hline : line ≠ []) :
    (∃ s', submitAt (depth + 1) line s = .error fault s') ↔ Leaves depth line s fault := by
  rw [submitAt, submitWith_of_ne_nil hline]
  constructor
  · rintro ⟨s', h⟩
    cases hresolve : s.registry.resolve (tokenize line) line s.world with
    | error own w =>
        rw [hresolve] at h
        obtain ⟨rfl, -⟩ := EStateM.Result.error.inj h
        exact .resolving hresolve
    | ok found w =>
        rw [hresolve] at h
        cases found with
        | none => cases h
        | some selection =>
            dsimp only at h
            cases hperform : perform (submitAt depth)
                (scriptOf s.registry selection (tokenize line)) (dispatched line selection w s) with
            | ok message after =>
                rw [bind_of_ok (execute_of_ok hperform)] at h
                cases hmessage : outputLines message with
                | ok shown =>
                    rw [bind_of_ok (print_of_ok hmessage)] at h
                    cases h
                | error own =>
                    rw [bind_of_error (print_of_error hmessage)] at h
                    obtain ⟨rfl, -⟩ := EStateM.Result.error.inj h
                    exact .printing hresolve hperform hmessage
            | error own after =>
                have hexecute := execute_of_error line hperform
                cases hanswer : answerTo line own with
                | none =>
                    rw [hanswer] at hexecute
                    rw [bind_of_error hexecute] at h
                    obtain ⟨rfl, -⟩ := EStateM.Result.error.inj h
                    exact .departing hresolve hperform (answerTo_eq_none_iff.mp hanswer)
                | some answer =>
                    rw [hanswer] at hexecute
                    rw [bind_of_ok hexecute] at h
                    cases h
  · rintro (hresolve | ⟨hresolve, hperform, hfault⟩ | ⟨hresolve, hperform, hmessage⟩)
    · rw [hresolve]
      exact ⟨_, rfl⟩
    · have hexecute := execute_of_error line hperform
      rw [answerTo_eq_none_iff.mpr hfault] at hexecute
      rw [hresolve]
      exact ⟨_, bind_of_error hexecute⟩
    · rw [hresolve]
      dsimp only
      rw [bind_of_ok (execute_of_ok hperform)]
      exact ⟨_, bind_of_error (print_of_error hmessage)⟩

theorem submit_eq_error_iff :
    (∃ s', submit depth line s = .error fault s') ↔ line ≠ [] ∧ Leaves depth line s fault := by
  by_cases hline : line = []
  · subst hline
    refine iff_of_false ?_ fun h => h.1 rfl
    rintro ⟨s', h⟩
    cases h
  · rw [and_iff_right hline]
    exact submitAt_eq_error_iff hline

theorem press_submit_eq_error_iff :
    (∃ s', press depth .submit s = .error fault s') ↔
      ∃ s', submit depth s.typed s = .error fault s' := by
  have htyped : (∃ s', submitTyped depth s = .error fault s') ↔
      ∃ s', submit depth s.typed s = .error fault s' := by
    rw [submitTyped, get_bind]
    exact bind_eq_error_iff fun result s => ⟨result, _, rfl⟩
  exact (bind_eq_error_iff fun result => AlwaysSucceeds.pure (some result)).trans htyped

theorem press_autocomplete_eq_error_iff :
    (∃ s', press depth .autocomplete s = .error fault s') ↔
      ∃ w, AliasConsole.autocomplete s.registry .full s.typed s.world = .error fault w := by
  have hreading : (∃ s', autocomplete s = .error fault s') ↔
      ∃ s', reading (AliasConsole.autocomplete s.registry .full s.typed) s = .error fault s' := by
    rw [autocomplete, get_bind]
    refine bind_eq_error_iff fun completion s => ?_
    by_cases hnone : completion.suggestions.isEmpty = true
    · simp only [hnone]
      exact ⟨completion, _, rfl⟩
    · simp only [hnone]
      exact ⟨completion, _, rfl⟩
  refine ((bind_eq_error_iff fun _ => AlwaysSucceeds.pure none).trans hreading).trans ?_
  cases h : AliasConsole.autocomplete s.registry .full s.typed s.world with
  | ok completion w =>
      rw [reading_of_ok h]
      constructor <;> rintro ⟨-, ⟨⟩⟩
  | error own w =>
      rw [reading_of_error h]
      simp

/-- Whatever has happened to a console, and however deep its commands may submit lines:
the faults that leave a line are exactly the three kinds, and so they are for the key that
submits the typed line; the key that completes it leaves exactly the faults of completing;
no other key and no text leaves a fault.  Resolving and completing fail by the faults of
candidates alone, and only a reply that is no text cannot be printed. -/
theorem leaves_reactAll {W : Type} {start : Session W} (hstart : start.registry.WellFormed)
    (events : List (Event W)) :
    let s := start.reactAll events
    (∀ depth line fault, (∃ s', submit depth line s = .error fault s') ↔
        line ≠ [] ∧ Leaves depth line s fault) ∧
      (∀ depth key fault, (∃ s', press depth key s = .error fault s') ↔
        key = .submit ∧ s.typed ≠ [] ∧ Leaves depth s.typed s fault ∨
          key = .autocomplete ∧
            ∃ w, AliasConsole.autocomplete s.registry .full s.typed s.world = .error fault w) ∧
      (∀ text, typeText text s = .ok () { s with typed := s.typed ++ text }) ∧
      (∀ line fault w, s.registry.resolve (tokenize line) line s.world = .error fault w →
        ∃ own, s.registry.MayFail own ∧ fault = own.duringMatch) ∧
      (∀ fault w, AliasConsole.autocomplete s.registry .full s.typed s.world = .error fault w →
        s.registry.MayFail fault) ∧
      ∀ message fault, outputLines message = .error fault →
        fault = .notText ∨ ∃ object, message = .foreign object ∧ object.lines = .error fault := by
  intro s
  have hformed : s.registry.WellFormed := wellFormed_reactAll hstart events
  refine ⟨fun depth line fault => submit_eq_error_iff, ?_, fun text => rfl, ?_, ?_, ?_⟩
  · intro depth key fault
    cases key with
    | submit => simpa using press_submit_eq_error_iff.trans submit_eq_error_iff
    | autocomplete => simpa using press_autocomplete_eq_error_iff
    | toggle => exact iff_of_false nofun (by simp)
    | close => exact iff_of_false nofun (by simp)
    | historyUp => exact iff_of_false nofun (by simp)
    | historyDown => exact iff_of_false nofun (by simp)
    | backspace => exact iff_of_false nofun (by simp)
  · intro line fault w h
    exact hformed.mayFail_of_resolve h
  · intro fault w h
    exact hformed.mayFail_of_autocomplete h
  · intro message fault h
    exact cases_of_outputLines h

/-- The fault of a source that is gone. -/
def sourceGone : Fault := .saying .failure "gone".toList

/-- A fault that closes what runs and that no command may swallow. -/
def closing : Fault := .silent (.other "GeneratorExit".toList .departure)

/-- An object that is not cut into lines at a text. -/
def bytes : Foreign where
  form := "b'5'".toList
  lines := .error (.saying .wrongType "a bytes-like object is required, not 'str'".toList)
  aliases := .ok ["53".toList]
  texts? := none

/-- Commands that reply with a number and with an object, one that closes what runs, and
one whose live source is gone. -/
def brittleEvents : List (Event Unit) :=
  [.register listCommand,
    .register (.aliases [.value (.text "five".toList) 0] none fun _ => .reply (.int 5)),
    .register (.aliases [.value (.text "raw".toList) 0] none fun _ => .reply (.foreign bytes)),
    .register (.aliases [.value (.text "shut".toList) 0] none fun _ => .fail closing),
    .register (.aliases [.candidates (.live fun w => .error sourceGone w)] none
      fun _ => .say "found".toList),
    .typeText "x".toList]

def brittle : Session Unit := (ofRegistry .empty ()).reactAll brittleEvents

theorem leaves_reactAll_brittle :
    (ofRegistry .empty () : Session Unit).registry.WellFormed ∧
      Leaves 0 "x".toList brittle sourceGone ∧ Leaves 0 "shut".toList brittle closing ∧
      brittle.registry.MayFail sourceGone := by
  have hempty : (ofRegistry .empty () : Session Unit).registry.WellFormed := by
    simp [Registry.WellFormed, ofRegistry, Registry.empty]
  obtain ⟨hsubmit, -, -, -, hcompletes, -⟩ := leaves_reactAll hempty brittleEvents
  refine ⟨hempty, ?_, ?_, ?_⟩
  · exact ((hsubmit 0 "x".toList sourceGone).mp ⟨_, rfl⟩).2
  · exact ((hsubmit 0 "shut".toList closing).mp ⟨_, rfl⟩).2
  · exact hcompletes sourceGone () rfl

/-- Faults that leave a console, and neither end the program nor interrupt it. -/
theorem exists_leaving :
    (∃ s', submit 0 "x".toList brittle = .error sourceGone s') ∧
      (∃ s', submit 0 "five".toList brittle = .error .notText s') ∧
      (∃ fault s', submit 0 "raw".toList brittle = .error fault s' ∧ fault.kind = .wrongType) ∧
      (∃ s', submit 0 "shut".toList brittle = .error closing s') ∧
      (∃ s', press 0 .submit brittle = .error sourceGone s') ∧
      (∃ s', press 0 .autocomplete brittle = .error sourceGone s') ∧
      ∀ fault ∈ [sourceGone, .notText, closing], fault.kind ≠ .exit ∧ fault.kind ≠ .interrupt :=
  ⟨⟨_, rfl⟩, ⟨_, rfl⟩, ⟨_, _, rfl, rfl⟩, ⟨_, rfl⟩, ⟨_, rfl⟩, ⟨_, rfl⟩, by decide⟩

end Session

end AliasConsole
