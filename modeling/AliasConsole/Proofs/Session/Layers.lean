import AliasConsole.Proofs.Session.Events
import AliasConsole.Proofs.Text.Pieces

/-!
# Layers of the output

A submitted line leaves three layers on the output that it finds: its echo, what
its command adds, and its answer.  A line that ends in a fault has no answer, and
a line that resolves to nothing has nothing between its echo and its answer.
Nothing that happens to a console takes lines of the output away or reorders them.
-/

namespace AliasConsole.Session

variable {W : Type} {nested : Text → Action W Result} {line : Text} {s : Session W}

/-- The output lines of a text, newest first. -/
def textLines (t : Text) : List Value := ((Text.pieces '\n' t).map Value.text).reverse

/-- The session just before a line is answered: the line has been heard, and the
command that it resolves to, if any, has ended. -/
def beforeAnswer (depth : ℕ) (line : Text) (s : Session W) : Session W :=
  match s.registry.resolve (tokenize line) line s.world with
  | .ok (some selection) w =>
      sessionAfter (perform (submitAt depth) (scriptOf s.registry selection (tokenize line)))
        (dispatched line selection w s)
  | _ => heard line s

/-- How a line may end after a session: a fault adds nothing to the output, and a
result adds the lines of its message.  Only a line that has just been heard is
answered as one that was not found. -/
def AnswersFrom (heard before : Session W) : EStateM.Result Fault (Session W) Result → Prop
  | .ok result s' =>
      (result.status = .notFound → before = heard) ∧
        ∃ shown, outputLines result.message = .ok shown ∧
          s'.output = shown.reverse ++ before.output
  | .error _ s' => s'.output = before.output

/-- The lines of a text have no line ends, and put together with line ends they
are the text. -/
theorem outputLines_text (t : Text) :
    ∃ lines : List Text, outputLines (.text t) = .ok (lines.map .text) ∧
      textLines t = (lines.map .text).reverse ∧ Text.joined ['\n'] lines = t ∧
      ∀ piece ∈ lines, '\n' ∉ piece :=
  ⟨Text.pieces '\n' t, rfl, rfl, (joined_pieces '\n' t).2⟩

/-- The command of a line adds to the echo of the line. -/
theorem output_beforeAnswer (depth : ℕ) (line : Text) (s : Session W) :
    textLines (echo line) ++ s.output <:+ (beforeAnswer depth line s).output := by
  fun_cases beforeAnswer depth line s with
  | case1 selection w hresolve =>
      have hlasting := lasting_output (W := W) (textLines (echo line) ++ s.output)
      have hsubmits := hlasting.preserves_submitAt (fun _ _ hs => hs) depth
      exact hlasting.preserves_perform hsubmits _ _ (List.suffix_refl _)
  | case2 => exact List.suffix_refl _

/-- Answering the outcome of a script prints nothing, and never says that the
command was not found. -/
theorem execute_cases (nested : Text → Action W Result) (line : Text) (script : Script W)
    (s : Session W) :
    (∃ result s', execute nested line script s = .ok result s' ∧ result.status ≠ .notFound ∧
        s'.output = (sessionAfter (perform nested script) s).output) ∨
      ∃ fault s', execute nested line script s = .error fault s' ∧
        s'.output = (sessionAfter (perform nested script) s).output := by
  cases hperform : perform nested script s with
  | ok message after =>
      rw [sessionAfter_of_ok hperform, execute_of_ok hperform]
      exact .inl ⟨⟨.ok, message⟩, after, rfl, nofun, rfl⟩
  | error fault after =>
      rw [sessionAfter_of_error hperform, execute_of_error line hperform]
      cases answerTo line fault with
      | none => exact .inr ⟨fault, after, rfl, rfl⟩
      | some answer => exact .inl ⟨⟨.error, .text answer.1⟩, _, rfl, nofun, rfl⟩

/-- Every line that is not empty ends right after its command has ended. -/
theorem answersFrom_submitAt (depth : ℕ) (hline : line ≠ []) (s : Session W) :
    AnswersFrom (heard line s) (beforeAnswer depth line s) (submitAt (depth + 1) line s) := by
  rw [submitAt, submitWith_of_ne_nil hline, beforeAnswer]
  cases hresolve : s.registry.resolve (tokenize line) line s.world with
  | error fault w => exact rfl
  | ok found w =>
      cases found with
      | none => exact ⟨fun _ => rfl, _, rfl, rfl⟩
      | some selection =>
          dsimp only
          obtain ⟨result, after, hexecute, hstatus, houtput⟩ | ⟨fault, after, hexecute, houtput⟩ :=
            execute_cases (submitAt depth) line (scriptOf s.registry selection (tokenize line))
              (dispatched line selection w s)
          · rw [bind_of_ok hexecute]
            cases hshown : outputLines result.message with
            | ok shown =>
                rw [bind_of_ok (print_of_ok hshown)]
                refine ⟨fun hnotFound => absurd hnotFound hstatus, shown, hshown, ?_⟩
                exact congrArg (shown.reverse ++ ·) houtput
            | error fault =>
                rw [bind_of_error (print_of_error hshown)]
                exact houtput
          · rw [bind_of_error hexecute]
            exact houtput

theorem submitAt_of_reply (hline : line ≠ []) {selection : Selection} {w : W}
    (hresolve : s.registry.resolve (tokenize line) line s.world = .ok (some selection) w)
    {depth : ℕ} {t : Text} {after : Session W}
    (hperform : perform (submitAt depth) (scriptOf s.registry selection (tokenize line))
      (dispatched line selection w s) = .ok (.text t) after) :
    submitAt (depth + 1) line s = .ok ⟨.ok, .text t⟩ (printed t after) := by
  cases hcallback : s.registry.callback? selection with
  | none =>
      rw [scriptOf, hcallback] at hperform
      cases hperform
  | some callback =>
      rw [scriptOf_of_callback? hcallback] at hperform
      exact submitWith_of_reply hline hresolve hcallback hperform

/-- A line that is not empty leaves its echo on the output that it finds, whatever room
there is for further lines, then what its command adds, and, unless it ends in a fault,
the lines of the message that it is answered with; nothing comes between the echo and the
message of a line that is not found, and a command that gives a text is answered with it.
The lines of a text make up the text.  The empty line leaves the output as it is, and no
events take anything away from it. -/
theorem output_submitAt (depth : ℕ) (line : Text) (s : Session W) :
    (line = [] → (sessionAfter (submitAt (depth + 1) line) s).output = s.output) ∧
      (line ≠ [] → ∃ added,
        (beforeAnswer depth line s).output = added ++ textLines (echo line) ++ s.output ∧
          match submitAt (depth + 1) line s with
          | .ok result s' =>
              (result.status = .notFound → added = []) ∧
                ∃ shown, outputLines result.message = .ok shown ∧
                  s'.output = shown.reverse ++ added ++ textLines (echo line) ++ s.output
          | .error _ s' => s'.output = added ++ textLines (echo line) ++ s.output) ∧
      (line ≠ [] → ∀ selection w t after,
        s.registry.resolve (tokenize line) line s.world = .ok (some selection) w →
        perform (submitAt depth) (scriptOf s.registry selection (tokenize line))
            (dispatched line selection w s) = .ok (.text t) after →
          submitAt (depth + 1) line s = .ok ⟨.ok, .text t⟩ (printed t after)) ∧
      (∀ t, ∃ lines : List Text, outputLines (.text t) = .ok (lines.map .text) ∧
        textLines t = (lines.map .text).reverse ∧ Text.joined ['\n'] lines = t ∧
        ∀ piece ∈ lines, '\n' ∉ piece) ∧
      ∀ events, s.output <:+ (s.reactAll events).output := by
  refine ⟨?_, ?_, ?_, outputLines_text, output_reactAll s⟩
  · rintro rfl
    rfl
  · intro hline
    obtain ⟨added, hadded⟩ := output_beforeAnswer depth line s
    have hbefore : (beforeAnswer depth line s).output =
        added ++ textLines (echo line) ++ s.output := by
      rw [List.append_assoc, hadded]
    refine ⟨added, hbefore, ?_⟩
    have hanswers := answersFrom_submitAt depth hline s
    cases hsubmit : submitAt (depth + 1) line s with
    | ok result s' =>
        rw [hsubmit] at hanswers
        obtain ⟨hnotFound, shown, hshown, houtput⟩ := hanswers
        refine ⟨fun hstatus => ?_, shown, hshown, ?_⟩
        · rw [hnotFound hstatus] at hadded
          exact List.append_left_eq_self.mp hadded
        · rw [houtput, hbefore]
          simp only [List.append_assoc]
    | error fault s' =>
        rw [hsubmit] at hanswers
        exact hanswers.trans hbefore
  · intro hline selection w t after hresolve hperform
    exact submitAt_of_reply hline hresolve hperform

/-- A console with a command that prints, submits a line that is not found and
answers with two lines. -/
def busy : Session Unit :=
  ofRegistry
    { commands :=
        [⟨[.fixed [["work".toList]]], 1, fun _ =>
          .print (.text "working".toList) <|
            .submit "rest".toList fun _ => .reply (.text "done\nat last".toList)⟩]
      literals := [] } ()

example :
    (sessionAfter (submit 1 "work".toList) busy).output =
      [.text "at last".toList, .text "done".toList, .text notFoundLine,
        .text " >> rest".toList, .text "working".toList, .text " >> work".toList] := rfl

end AliasConsole.Session
