import AliasConsole.Proofs.Session.Submission

/-!
# Actions that preserve a property

An action preserves a property of the session if the session still has it
afterwards, however the action ends.  What is put together from actions that
preserve a property preserves it.  Most scripts leave most of the world alone;
a line that runs such a script preserves the registry and what the script keeps
of the world.
-/

namespace AliasConsole

variable {W : Type}

/-- The script registers nothing and submits nothing, and it changes the world
only in ways that keep the property. -/
inductive Script.Keeps (P : W → Prop) : Script W → Prop
  | reply (message : Value) : Keeps P (.reply message)
  | fail (fault : Fault) : Keeps P (.fail fault)
  | world {change : W → W} {next : W → Script W} (hchange : ∀ w, P w → P (change w))
      (hnext : ∀ w, P w → Keeps P (next w)) : Keeps P (.world change next)
  | print (message : Value) {next : Script W} (hnext : Keeps P next) :
      Keeps P (.print message next)
  | listing {next : Text → Script W} (hnext : ∀ t, Keeps P (next t)) : Keeps P (.listing next)

namespace Session

/-- The session has the property after the action if it had it before. -/
def Preserves {α : Type} (I : Session W → Prop) (action : Action W α) : Prop :=
  ∀ s, I s → I (sessionAfter action s)

section Preserves

variable {α β : Type} {I : Session W → Prop} {s s' : Session W}

theorem sessionAfter_of_ok {action : Action W α} {a : α} (h : action s = .ok a s') :
    sessionAfter action s = s' := by
  rw [sessionAfter, h]

theorem sessionAfter_of_error {action : Action W α} {fault : Fault}
    (h : action s = .error fault s') : sessionAfter action s = s' := by
  rw [sessionAfter, h]

theorem Preserves.pure (a : α) : Preserves I (pure a : Action W α) :=
  fun _ hs => hs

theorem Preserves.throw (fault : Fault) : Preserves I (throw fault : Action W α) :=
  fun _ hs => hs

theorem Preserves.bind {x : Action W α} {f : α → Action W β} (hx : Preserves I x)
    (hf : ∀ a, Preserves I (f a)) : Preserves I (x >>= f) := by
  intro s hs
  have hafter := hx s hs
  cases hok : x s with
  | ok a s' =>
      rw [sessionAfter_of_ok hok] at hafter
      rw [sessionAfter, bind_of_ok hok]
      exact hf a s' hafter
  | error fault s' =>
      rw [sessionAfter_of_error hok] at hafter
      rw [sessionAfter_of_error (bind_of_error hok)]
      exact hafter

/-- An action whose fault is made an answer leaves what it left before. -/
theorem sessionAfter_attempt (action : Action W α) (s : Session W) :
    sessionAfter (attempt action) s = sessionAfter action s := by
  cases h : action s with
  | ok a s' => rw [sessionAfter_of_ok h, sessionAfter_of_ok (attempt_of_ok h)]
  | error fault s' => rw [sessionAfter_of_error h, sessionAfter_of_ok (attempt_of_error h)]

theorem Preserves.attempt {action : Action W α} (h : Preserves I action) :
    Preserves I (attempt action) := by
  intro s hs
  rw [sessionAfter_attempt]
  exact h s hs

theorem preserves_print (hI : ∀ s lines, I s → I { s with output := lines ++ s.output })
    (message : Value) : Preserves I (print message) := by
  intro s hs
  rw [sessionAfter, print]
  cases outputLines message with
  | ok lines => exact hI s lines.reverse hs
  | error fault => exact hs

theorem preserves_report (hI : ∀ s journal, I s → I { s with journal }) (level : Level)
    (logger message : Text) : Preserves I (report level logger message) :=
  fun s hs => hI s _ hs

/-- Answering the outcome of a script adds no more than a report. -/
theorem preserves_execute {nested : Text → Action W Result}
    {script : Script W} (hI : ∀ s journal, I s → I { s with journal })
    (hscript : Preserves I (perform nested script)) (line : Text) :
    Preserves I (execute nested line script) := by
  refine hscript.attempt.bind fun outcome => ?_
  cases outcome with
  | ok message => exact Preserves.pure _
  | error fault =>
      dsimp only
      cases answerTo line fault with
      | none => exact Preserves.throw fault
      | some answer => exact (preserves_report hI _ _ _).bind fun _ => Preserves.pure _

end Preserves

/-- The session has the commands of the registry, and its world has the property. -/
structure Holds (r : Registry W) (P : W → Prop) (s : Session W) : Prop where
  registry_eq : s.registry = r
  world : P s.world

variable {r : Registry W} {P : W → Prop} {nested : Text → Action W Result} {line : Text}
  {script : Script W} {s : Session W}

theorem Holds.preserves_print (message : Value) : Preserves (Holds r P) (print message) :=
  Session.preserves_print (fun _ _ hs => ⟨hs.registry_eq, hs.world⟩) message

theorem preserves_perform (hkeeps : script.Keeps P) :
    Preserves (Holds r P) (perform nested script) := by
  induction hkeeps with
  | reply message => exact Preserves.pure message
  | fail fault => exact Preserves.throw fault
  | world hchange hnext ih =>
      intro s hs
      rw [sessionAfter, perform_world]
      exact ih s.world hs.world _ ⟨hs.registry_eq, hchange s.world hs.world⟩
  | print message hnext ih =>
      rw [perform]
      exact (Holds.preserves_print message).bind fun _ => ih
  | listing hnext ih =>
      intro s hs
      rw [sessionAfter, perform]
      exact ih s.registry.listing s hs

/-- A line that resolves without touching the property preserves it if the script
that it runs keeps it. -/
theorem Holds.submitWith (h : s.Holds r P) {found : Option Selection} {w : W}
    (hresolve : r.resolve (tokenize line) line s.world = .ok found w) (hw : P w)
    (hkeeps : ∀ selection callback, found = some selection →
      r.callback? selection = some callback → (callback (tokenize line)).Keeps P) :
    (sessionAfter (submitWith nested line) s).Holds r P := by
  by_cases hline : line = []
  · rw [hline, sessionAfter_of_ok (submitWith_nil s)]
    exact ⟨h.registry_eq, h.world⟩
  · rw [sessionAfter, submitWith_of_ne_nil hline, h.registry_eq, hresolve]
    cases found with
    | none => exact ⟨h.registry_eq, hw⟩
    | some selection =>
        have hscript : (scriptOf r selection (tokenize line)).Keeps P := by
          cases hcallback : r.callback? selection with
          | none =>
              rw [scriptOf, hcallback]
              exact .fail _
          | some callback =>
              rw [scriptOf_of_callback? hcallback]
              exact hkeeps selection callback rfl hcallback
        have hperform : Preserves (Holds r P)
            (perform nested (scriptOf r selection (tokenize line))) := preserves_perform hscript
        have hexecute :=
          preserves_execute (fun _ _ hs => ⟨hs.registry_eq, hs.world⟩) hperform line
        exact hexecute.bind
          (fun result => (Holds.preserves_print result.message).bind fun _ => Preserves.pure result)
          (dispatched line selection w s) ⟨h.registry_eq, hw⟩

end Session

end AliasConsole
