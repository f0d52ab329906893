import AliasConsole.Proofs.History.Log
import AliasConsole.Proofs.Session.Lasting

/-!
# Lines in the order in which they are taken up

Submitting a line takes it up, and then, in their order, the lines that its
command submits, each with those that it leads to itself.  A line that is
submitted too deep is not taken up.  The history has every line that was taken
up submitted to it, in this order, and no script does anything else to it.
-/

namespace AliasConsole

variable {W : Type}

/-- What follows from the answer of an action and from the session that it
leaves; nothing if it ends in a fault. -/
def Session.followed {α : Type} (action : Action W α) (next : α → Session W → List Text)
    (s : Session W) : List Text :=
  match action s with
  | .ok a s' => next a s'
  | .error _ _ => []

/-- The lines that are taken up while a script is carried out from a session on;
`nested` says what it is to submit a line, and `taken` which lines this takes up. -/
def Script.linesTaken (nested : Text → Action W Result) (taken : Text → Session W → List Text) :
    Script W → Session W → List Text
  | .reply _ => fun _ => []
  | .fail _ => fun _ => []
  | .world change next => fun s =>
      (next s.world).linesTaken nested taken { s with world := change s.world }
  | .print message next =>
      Session.followed (Session.print message) fun _ => next.linesTaken nested taken
  | .submit line next => fun s =>
      taken line s ++ Session.followed (Session.attempt (nested line))
        (fun outcome => (next outcome).linesTaken nested taken) s
  | .register request next =>
      Session.followed (Session.attempt (Session.register request)) fun outcome =>
        (next outcome).linesTaken nested taken
  | .listing next => fun s => (next s.registry.listing).linesTaken nested taken s

namespace Session

/-- The lines that are taken up when a line is submitted, the line itself first. -/
def linesTaken : ℕ → Text → Session W → List Text
  | 0, _, _ => []
  | depth + 1, line, s =>
    line ::
      if line.isEmpty then []
      else match s.registry.resolve (tokenize line) line s.world with
        | .ok (some selection) w =>
          (scriptOf s.registry selection (tokenize line)).linesTaken (submitAt depth)
            (linesTaken depth) (dispatched line selection w s)
        | _ => []

/-- The action does to the history what submitting the lines to it does. -/
def Submits {α : Type} (action : Action W α) (lines : Session W → List Text) : Prop :=
  ∀ s, (sessionAfter action s).history = (lines s).foldl History.submit s.history

section Submits

variable {α β : Type} {x : Action W α} {f : α → Action W β} {lines : Session W → List Text}
  {more : α → Session W → List Text}

theorem Submits.of_preserves
    (h : ∀ kept, Preserves (fun s : Session W => s.history = kept) x) :
    Submits x fun _ => [] :=
  fun s => h s.history s rfl

theorem Submits.pure (a : α) : Submits (pure a : Action W α) fun _ => [] :=
  fun _ => rfl

theorem Submits.throw (fault : Fault) : Submits (throw fault : Action W α) fun _ => [] :=
  fun _ => rfl

theorem Submits.bind (hx : Submits x lines) (hf : ∀ a, Submits (f a) (more a)) :
    Submits (x >>= f) fun s => lines s ++ followed x more s := by
  intro s
  have hfirst := hx s
  dsimp only
  rw [List.foldl_append, ← hfirst]
  cases h : x s with
  | ok a s' =>
      rw [sessionAfter, bind_of_ok h, sessionAfter_of_ok h, followed, h]
      exact hf a s'
  | error fault s' =>
      rw [sessionAfter_of_error (bind_of_error h), sessionAfter_of_error h, followed, h]
      rfl

theorem Submits.bind_right (hx : Submits x fun _ => []) (hf : ∀ a, Submits (f a) (more a)) :
    Submits (x >>= f) (followed x more) :=
  hx.bind hf

theorem Submits.bind_left (hx : Submits x lines) (hf : ∀ a, Submits (f a) fun _ => []) :
    Submits (x >>= f) lines := by
  intro s
  have hnothing : followed x (fun _ _ => []) s = [] := by
    rw [followed]
    cases x s <;> rfl
  have hboth := hx.bind hf s
  dsimp only at hboth
  rwa [hnothing, List.append_nil] at hboth

theorem Submits.attempt (hx : Submits x lines) : Submits (attempt x) lines := by
  intro s
  rw [sessionAfter_attempt]
  exact hx s

end Submits

variable {nested : Text → Action W Result} {taken : Text → Session W → List Text}

theorem submits_print (message : Value) :
    Submits (print message : Action W Unit) fun _ => [] :=
  .of_preserves fun kept => (lasting_history kept).preserves_print message

theorem submits_report (level : Level) (logger message : Text) :
    Submits (report level logger message : Action W Unit) fun _ => [] :=
  .of_preserves fun kept => (lasting_history kept).preserves_report level logger message

theorem submits_register (request : Registration W (Script W)) :
    Submits (register request) fun _ => [] :=
  .of_preserves fun kept => (lasting_history kept).preserves_register request

/-- A script does nothing to the history but take up lines. -/
theorem submits_perform (hnested : ∀ line, Submits (nested line) (taken line))
    (script : Script W) :
    Submits (perform nested script) (script.linesTaken nested taken) := by
  induction script with
  | reply message => exact Submits.pure message
  | fail fault => exact Submits.throw fault
  | world change next ih =>
      intro s
      rw [sessionAfter, perform_world]
      exact ih s.world { s with world := change s.world }
  | print message next ih =>
      rw [perform]
      exact (submits_print message).bind_right fun _ => ih
  | submit line next ih =>
      rw [perform]
      exact (hnested line).attempt.bind ih
  | register request next ih =>
      rw [perform]
      exact (submits_register request).attempt.bind_right ih
  | listing next ih =>
      intro s
      rw [sessionAfter, perform]
      exact ih s.registry.listing s

theorem submits_execute {script : Script W} {lines : Session W → List Text}
    (hscript : Submits (perform nested script) lines) (line : Text) :
    Submits (execute nested line script) lines := by
  refine hscript.attempt.bind_left fun outcome => ?_
  cases outcome with
  | ok message => exact Submits.pure _
  | error fault =>
      dsimp only
      cases answerTo line fault with
      | none => exact Submits.throw fault
      | some answer => exact (submits_report _ _ _).bind_left fun _ => Submits.pure _

/-- Submitting a line submits to the history all lines that it takes up. -/
theorem submits_submitAt (depth : ℕ) (line : Text) :
    Submits (submitAt depth line : Action W Result) (linesTaken depth line) := by
  induction depth generalizing line with
  | zero => exact Submits.throw _
  | succ depth ih =>
      intro s
      rw [sessionAfter, submitAt, linesTaken]
      by_cases hline : line = []
      · subst hline
        rfl
      · rw [if_neg (by simpa using hline), submitWith_of_ne_nil hline, List.foldl_cons]
        cases hresolve : s.registry.resolve (tokenize line) line s.world with
        | error fault w => rfl
        | ok found w =>
            cases found with
            | none => rfl
            | some selection =>
                have hexecute := submits_execute
                  (submits_perform ih (scriptOf s.registry selection (tokenize line))) line
                exact hexecute.bind_left
                  (fun result => (submits_print result.message).bind_left fun _ => Submits.pure _)
                  (dispatched line selection w s)

end Session

end AliasConsole
