import AliasConsole.Proofs.Resolution
import AliasConsole.Session.Submit

/-!
# What a submitted line does

A line is heard, that is recorded and echoed, before it is resolved.  A line
that resolves to nothing is answered at once.  A line that resolves is answered
with what its script gives, or with the answer to the fault of the script, and
the answer is printed last.
-/

namespace AliasConsole.Session

variable {W : Type} {nested : Text → Action W Result} {line : Text} {s s' : Session W}
  {script : Script W}

/-- The session with a text printed. -/
def printed (t : Text) (s : Session W) : Session W :=
  { s with output := ((Text.pieces '\n' t).map Value.text).reverse ++ s.output }

/-- The session with a line recorded and echoed. -/
def heard (line : Text) (s : Session W) : Session W :=
  printed (echo line) { s with history := s.history.submit line }

/-- The session with a report. -/
def reported (level : Level) (logger message : Text) (s : Session W) : Session W :=
  { s with journal := s.journal ++ [⟨level, logger, message⟩] }

/-- The session that a resolved line starts its script in. -/
def dispatched (line : Text) (selection : Selection) (world : W) (s : Session W) : Session W :=
  reported .debug consoleLogger (resolvedTo line selection) { heard line s with world }

/-- What a selected command or literal does with the tokens of the line. -/
def scriptOf (r : Registry W) (selection : Selection) (tokens : List Text) : Script W :=
  match r.callback? selection with
  | some callback => callback tokens
  | none => .fail .outOfRange

/-- The session after an action, however it ends. -/
def sessionAfter {α : Type} (action : Action W α) (s : Session W) : Session W :=
  match action s with
  | .ok _ s' => s'
  | .error _ s' => s'

theorem get_bind {α : Type} (f : Session W → Action W α) (s : Session W) :
    ((get : Action W (Session W)) >>= f) s = f s s :=
  rfl

theorem scriptOf_of_callback? {r : Registry W} {selection : Selection} {callback : Callback W}
    (h : r.callback? selection = some callback) (tokens : List Text) :
    scriptOf r selection tokens = callback tokens := by
  rw [scriptOf, h]

theorem perform_world (change : W → W) (next : W → Script W) (s : Session W) :
    perform nested (.world change next) s =
      perform nested (next s.world) { s with world := change s.world } := by
  rw [perform]
  rfl

theorem perform_reading_of_ok {α : Type} {read : Reads W α} {a : α} {w : W}
    (h : read s.world = .ok a w) (next : α → Script W) :
    perform nested (.reading read next) s = perform nested (next a) { s with world := w } := by
  rw [Script.reading, perform_world]
  simp only [h]

theorem attempt_of_ok {α : Type} {action : Action W α} {a : α} (h : action s = .ok a s') :
    attempt action s = .ok (.ok a) s' :=
  tryCatch_of_ok (bind_of_ok h)

theorem attempt_of_error {α : Type} {action : Action W α} {fault : Fault}
    (h : action s = .error fault s') : attempt action s = .ok (.error fault) s' :=
  tryCatch_of_error (bind_of_error h)

theorem execute_of_ok {message : Value} (h : perform nested script s = .ok message s') :
    execute nested line script s = .ok ⟨.ok, message⟩ s' := by
  rw [execute, bind_of_ok (attempt_of_ok h)]
  rfl

theorem execute_of_error (line : Text) {fault : Fault}
    (h : perform nested script s = .error fault s') :
    execute nested line script s =
      match answerTo line fault with
      | none => .error fault s'
      | some (answer, level, told) =>
          .ok ⟨.error, .text answer⟩ (reported level consoleLogger told s') := by
  rw [execute, bind_of_ok (attempt_of_error h)]
  dsimp only
  cases answerTo line fault <;> rfl

theorem reading_of_ok {α : Type} {read : Reads W α} {a : α} {w : W}
    (h : read s.world = .ok a w) : reading read s = .ok a { s with world := w } := by
  rw [reading, h]

theorem reading_of_error {α : Type} {read : Reads W α} {fault : Fault} {w : W}
    (h : read s.world = .error fault w) :
    reading read s = .error fault { s with world := w } := by
  rw [reading, h]

section Print

variable {message : Value}

theorem print_of_ok {lines : List Value} (h : outputLines message = .ok lines) :
    print message s = .ok () { s with output := lines.reverse ++ s.output } := by
  rw [print, h]
  rfl

theorem print_of_error {fault : Fault} (h : outputLines message = .error fault) :
    print message s = .error fault s := by
  rw [print, h]
  rfl

end Print

section Register

variable {r : Registry W} {request : Registration W (Script W)}

theorem register_of_ok (h : s.registry.register request = .ok r) :
    register request s =
      (if s.registry.commands.length < r.commands.length then
        report .debug registryLogger (registered s.registry.commands.length
          ((r.commands.getLast?.map (·.fixed)).getD 0))
      else pure ()) { s with registry := r } := by
  rw [register, get_bind, h]
  rfl

theorem register_of_error {fault : Fault} (h : s.registry.register request = .error fault) :
    register request s = .error fault s := by
  rw [register, get_bind, h]
  rfl

end Register

theorem submitWith_nil (s : Session W) :
    submitWith nested [] s = .ok ⟨.empty, .text []⟩ { s with history := s.history.submit [] } :=
  rfl

theorem submitWith_of_ne_nil (hline : line ≠ []) (s : Session W) :
    submitWith nested line s =
      match s.registry.resolve (tokenize line) line s.world with
      | .error fault w => .error fault { heard line s with world := w }
      | .ok none w => .ok ⟨.notFound, .text notFoundLine⟩
          (printed notFoundLine (reported .debug consoleLogger
            ("No command matches ".toList ++ Text.quoted line) { heard line s with world := w }))
      | .ok (some selection) w =>
          (do
            let result ← execute nested line (scriptOf s.registry selection (tokenize line))
            print result.message
            return result) (dispatched line selection w s) := by
  obtain ⟨c, rest, rfl⟩ := List.exists_cons_of_ne_nil hline
  have hheard : submitWith nested (c :: rest) s =
      (reading (s.registry.resolve (tokenize (c :: rest)) (c :: rest)) >>= _)
        (heard (c :: rest) s) := rfl
  rw [hheard]
  cases h : s.registry.resolve (tokenize (c :: rest)) (c :: rest) s.world with
  | error fault w =>
      exact bind_of_error (reading_of_error (s := heard (c :: rest) s) h)
  | ok found w =>
      rw [bind_of_ok (reading_of_ok (s := heard (c :: rest) s) h)]
      cases found <;> rfl

section Answer

variable {selection : Selection} {callback : Callback W} {w : W}

theorem submitWith_of_reply (hline : line ≠ [])
    (hresolve : s.registry.resolve (tokenize line) line s.world = .ok (some selection) w)
    (hcallback : s.registry.callback? selection = some callback) {t : Text}
    (hperform : perform nested (callback (tokenize line)) (dispatched line selection w s) =
      .ok (.text t) s') :
    submitWith nested line s = .ok ⟨.ok, .text t⟩ (printed t s') := by
  rw [submitWith_of_ne_nil hline, hresolve]
  dsimp only
  rw [scriptOf_of_callback? hcallback, bind_of_ok (execute_of_ok hperform)]
  rfl

/-- A line whose script fails is answered with the answer to its fault. -/
theorem submitWith_of_fault (hline : line ≠ [])
    (hresolve : s.registry.resolve (tokenize line) line s.world = .ok (some selection) w)
    (hcallback : s.registry.callback? selection = some callback) {fault : Fault}
    (hperform : perform nested (callback (tokenize line)) (dispatched line selection w s) =
      .error fault s') {answer told : Text} {level : Level}
    (hanswer : answerTo line fault = some (answer, level, told)) :
    submitWith nested line s =
      .ok ⟨.error, .text answer⟩ (printed answer (reported level consoleLogger told s')) := by
  have hexecute := execute_of_error line hperform
  rw [hanswer] at hexecute
  rw [submitWith_of_ne_nil hline, hresolve]
  dsimp only
  rw [scriptOf_of_callback? hcallback, bind_of_ok hexecute]
  rfl

end Answer

end AliasConsole.Session
