import AliasConsole.Proofs.Registration
import AliasConsole.Proofs.Session.Keeping

/-!
# Properties that no step of a script can harm

A script changes the world, prints, registers and submits lines.  A property of
the session that the first three cannot harm, and the submitted lines do not
harm, is preserved by every script and so by every line.
-/

namespace AliasConsole

variable {W : Type}

/-- Induction over scripts: each step may be followed by any of the scripts that
the step can lead to. -/
@[induction_eliminator]
theorem Script.induction {motive : Script W → Prop}
    (reply : ∀ message, motive (.reply message))
    (fail : ∀ fault, motive (.fail fault))
    (world : ∀ change next, (∀ w, motive (next w)) → motive (.world change next))
    (print : ∀ message next, motive next → motive (.print message next))
    (submit : ∀ line next, (∀ outcome, motive (next outcome)) → motive (.submit line next))
    (register : ∀ request next, (∀ outcome, motive (next outcome)) →
      motive (.register request next))
    (listing : ∀ next, (∀ t, motive (next t)) → motive (.listing next)) :
    ∀ script, motive script
  | .reply message => reply message
  | .fail fault => fail fault
  | .world change next =>
      world change next fun w =>
        Script.induction reply fail world print submit register listing (next w)
  | .print message next =>
      print message next (Script.induction reply fail world print submit register listing next)
  | .submit line next =>
      submit line next fun outcome =>
        Script.induction reply fail world print submit register listing (next outcome)
  | .register request next =>
      register request next fun outcome =>
        Script.induction reply fail world print submit register listing (next outcome)
  | .listing next =>
      listing next fun t =>
        Script.induction reply fail world print submit register listing (next t)

namespace Session

/-- No step of a script but the submission of a line can make the property false. -/
structure Lasting (I : Session W → Prop) : Prop where
  world : ∀ s world, I s → I { s with world }
  registry : ∀ s request registry, s.registry.register request = .ok registry → I s →
    I { s with registry }
  journal : ∀ s journal, I s → I { s with journal }
  output : ∀ s lines, I s → I { s with output := lines ++ s.output }

variable {I : Session W → Prop} {nested : Text → Action W Result}

theorem lasting_history (h : History) : Lasting fun s : Session W => s.history = h :=
  ⟨fun _ _ hs => hs, fun _ _ _ _ hs => hs, fun _ _ hs => hs, fun _ _ hs => hs⟩

theorem lasting_output (lines : List Value) : Lasting fun s : Session W => lines <:+ s.output :=
  ⟨fun _ _ hs => hs, fun _ _ _ _ hs => hs, fun _ _ hs => hs,
    fun _ further hs => hs.trans (List.suffix_append further _)⟩

theorem lasting_wellFormed : Lasting fun s : Session W => s.registry.WellFormed :=
  ⟨fun _ _ hs => hs, fun _ _ _ h hs => hs.of_register h, fun _ _ hs => hs, fun _ _ hs => hs⟩

theorem lasting_mem_commands (c : Command W) :
    Lasting fun s : Session W => c ∈ s.registry.commands :=
  ⟨fun _ _ hs => hs, fun _ _ _ h hs => (Registry.extends_of_register h).commands.subset hs,
    fun _ _ hs => hs, fun _ _ hs => hs⟩

theorem lasting_extends (r : Registry W) : Lasting fun s : Session W => r.Extends s.registry :=
  ⟨fun _ _ hs => hs, fun _ _ _ h hs => hs.trans (Registry.extends_of_register h),
    fun _ _ hs => hs, fun _ _ hs => hs⟩

namespace Lasting

variable (hI : Lasting I)

include hI

theorem preserves_print (message : Value) : Preserves I (print message) :=
  Session.preserves_print hI.output message

theorem preserves_report (level : Level) (logger message : Text) :
    Preserves I (report level logger message) :=
  Session.preserves_report hI.journal level logger message

theorem preserves_reading {α : Type} (read : Reads W α) : Preserves I (reading read) := by
  intro s hs
  rw [sessionAfter]
  cases h : read s.world with
  | ok a world =>
      rw [reading_of_ok h]
      exact hI.world s world hs
  | error fault world =>
      rw [reading_of_error h]
      exact hI.world s world hs

theorem preserves_register (request : Registration W (Script W)) :
    Preserves I (register request) := by
  intro s hs
  rw [sessionAfter]
  cases h : s.registry.register request with
  | error fault =>
      rw [register_of_error h]
      exact hs
  | ok registry =>
      have hregistry := hI.registry s request registry h hs
      rw [register_of_ok h]
      split_ifs
      · exact hI.journal _ _ hregistry
      · exact hregistry

theorem preserves_registerAll (requests : List (Registration W (Script W))) :
    Preserves I (registerAll requests) := by
  induction requests with
  | nil => exact Preserves.pure ()
  | cons request rest ih => exact (hI.preserves_register request).bind fun _ => ih

theorem preserves_perform (hnested : ∀ line, Preserves I (nested line)) (script : Script W) :
    Preserves I (perform nested script) := by
  induction script with
  | reply message => exact Preserves.pure message
  | fail fault => exact Preserves.throw fault
  | world change next ih =>
      intro s hs
      rw [sessionAfter, perform_world]
      exact ih s.world _ (hI.world s _ hs)
  | print message next ih =>
      rw [perform]
      exact (hI.preserves_print message).bind fun _ => ih
  | submit line next ih =>
      rw [perform]
      exact (hnested line).attempt.bind ih
  | register request next ih =>
      rw [perform]
      exact (hI.preserves_register request).attempt.bind ih
  | listing next ih =>
      intro s hs
      rw [sessionAfter, perform]
      exact ih s.registry.listing s hs

/-- A property that recording a line cannot harm either is preserved by every line. -/
theorem preserves_submitAt (hhistory : ∀ s history, I s → I { s with history }) (depth : ℕ)
    (line : Text) : Preserves I (submitAt depth line) := by
  induction depth generalizing line with
  | zero => exact Preserves.throw _
  | succ depth ih =>
      intro s hs
      have hrecorded := hhistory s (s.history.submit line) hs
      rw [sessionAfter, submitAt]
      by_cases hline : line = []
      · subst hline
        exact hrecorded
      · have hheard : I (heard line s) := hI.output _ _ hrecorded
        rw [submitWith_of_ne_nil hline]
        cases hresolve : s.registry.resolve (tokenize line) line s.world with
        | error fault w => exact hI.world _ w hheard
        | ok found w =>
            cases found with
            | none => exact hI.output _ _ (hI.journal _ _ (hI.world _ w hheard))
            | some selection =>
                have hexecute := preserves_execute hI.journal
                  (hI.preserves_perform ih (scriptOf s.registry selection (tokenize line))) line
                refine hexecute.bind (fun result => ?_) (dispatched line selection w s)
                  (hI.journal _ _ (hI.world _ w hheard))
                exact (hI.preserves_print result.message).bind fun _ => Preserves.pure result

end Lasting

end Session

end AliasConsole
