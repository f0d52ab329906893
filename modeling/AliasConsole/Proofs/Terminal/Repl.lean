import AliasConsole.Proofs.Session.Behaving
import AliasConsole.Proofs.Session.Layers
import AliasConsole.Terminal.Repl

/-!
# What the loop shows

The loop submits the lines that it reads one after the other.  After each line it
shows exactly what the submission added to the output on top of the echo of the
line, oldest first, and it stops at the first line that asks to leave.
-/

namespace AliasConsole

namespace Session

variable {W : Type} {depth : ℕ} {line : Text} {s s' : Session W}

theorem textLines_of_notMem {t : Text} (ht : '\n' ∉ t) : textLines t = [.text t] := by
  rw [textLines, pieces_of_notMem ht]
  rfl

theorem textLines_echo (hline : '\n' ∉ line) : textLines (echo line) = [.text (echo line)] := by
  apply textLines_of_notMem
  rw [echo, List.mem_append, not_or]
  exact ⟨by decide, hline⟩

theorem output_submit_of_ne_nil (depth : ℕ) (hline : line ≠ []) (s : Session W) :
    textLines (echo line) ++ s.output <:+ (sessionAfter (submit depth line) s).output := by
  have hbefore := output_beforeAnswer depth line s
  have hanswers := answersFrom_submitAt depth hline s
  cases h : submit depth line s with
  | ok result s' =>
      rw [sessionAfter_of_ok h]
      change AnswersFrom _ _ (submit depth line s) at hanswers
      rw [h] at hanswers
      obtain ⟨-, shown, -, houtput⟩ := hanswers
      rw [houtput]
      exact hbefore.trans (List.suffix_append _ _)
  | error fault s' =>
      rw [sessionAfter_of_error h]
      change AnswersFrom _ _ (submit depth line s) at hanswers
      rw [h] at hanswers
      rw [show s'.output = _ from hanswers]
      exact hbefore

theorem submitTyped_eq_ok {result : Result} (h : submitTyped depth s = .ok result s') :
    ∃ after, submit depth s.typed s = .ok result after ∧ s' = { after with typed := [] } := by
  rw [submitTyped, get_bind] at h
  obtain ⟨own, after, hsubmit, h⟩ := exists_ok_of_bind_ok h
  obtain ⟨rfl, rfl⟩ := EStateM.Result.ok.inj h
  exact ⟨after, hsubmit, rfl⟩

end Session

namespace Repl

open Session

variable {W : Type} {depth : ℕ} {s : Session W} {line prompt : Text} {lines : List Text}

/-- The echo of a line in the output; the empty line has none. -/
def echoed (line : Text) : List Value := if line = [] then [] else [.text (echo line)]

/-- A line that was answered, its answer, and what its submission added to the output
on top of the echo, newest first. -/
structure Exchange where
  line : Text
  result : Result
  added : List Value

/-- What a loop writes for an exchange: the prompt, and what was added, oldest first. -/
def Exchange.written (prompt : Text) (e : Exchange) : List Written :=
  .prompt prompt :: e.added.reverse.map fun v =>
    .line v.plain (if e.result.isOk then none else some .red)

/-- What an exchange leaves on the output, newest first. -/
def Exchange.left (e : Exchange) : List Value := e.added ++ echoed e.line

/-- Lines are submitted from a session on, those of the exchanges are answered, one
more may ask to leave, the next ones are not read, and the last session is left. -/
inductive Serves (depth : ℕ) :
    List Text → Session W → List Exchange → List Text → Session W → Prop
  | finished (s : Session W) : Serves depth [] s [] [] s
  | answered {line : Text} {rest unread : List Text} {s after last : Session W} {e : Exchange}
      {exchanges : List Exchange} (hline : e.line = line)
      (hsubmit : submitTyped depth { s with typed := line } = .ok e.result after)
      (houtput : after.output = e.left ++ s.output)
      (hrest : Serves depth rest after exchanges unread last) :
      Serves depth (line :: rest) s (e :: exchanges) unread last
  | asked {line : Text} {rest : List Text} {s last : Session W} {fault : Fault}
      (hsubmit : submitTyped depth { s with typed := line } = .error fault last)
      (hexit : fault.kind.isExit = true) : Serves depth (line :: rest) s [] rest last

/-- What the exchanges left lies on top of the old output, in their order. -/
theorem Serves.output {exchanges : List Exchange} {unread : List Text} {last : Session W}
    (h : Serves depth lines s exchanges unread last) :
    exchanges.reverse.flatMap Exchange.left ++ s.output <:+ last.output := by
  induction h with
  | finished s => exact List.suffix_refl _
  | answered hline hsubmit houtput hrest ih =>
      rw [houtput] at ih
      rw [List.reverse_cons, List.flatMap_append, List.flatMap_singleton, List.append_assoc]
      exact ih
  | @asked line rest s last fault hsubmit hexit =>
      have hkept := (lasting_output s.output).preserves_submitTyped (fun _ _ _ hs => hs)
        (fun _ _ hs => hs) depth { s with typed := line } (List.suffix_refl _)
      rwa [sessionAfter_of_error hsubmit] at hkept

/-- The window of the new lines, without its last line, is what lies on top of the
echo. -/
theorem dropLast_recent {after : Session W} {added : List Value} {v : Value}
    (h : after.output = added ++ v :: s.output) :
    (after.recent ((after.output.length : Int) - s.output.length)).dropLast = added := by
  have hcount : ((after.output.length : Int) - s.output.length).toNat = (added ++ [v]).length := by
    rw [h, List.length_append, List.length_append, List.length_cons, List.length_singleton]
    omega
  rw [Session.recent, hcount, h, List.append_cons added v s.output, List.take_left,
    List.dropLast_concat]

/-- What is shown after a line is what was added on top of its echo. -/
theorem cons_shownLines {e : Exchange} {after : Session W}
    (hstatus : e.result.status = .empty ↔ e.line = []) (hempty : e.line = [] → e.added = [])
    (houtput : after.output = e.left ++ s.output) :
    .prompt prompt :: shownLines s.output.length after e.result = e.written prompt := by
  rw [shownLines, Exchange.written]
  by_cases hline : e.line = []
  · rw [if_pos (hstatus.mpr hline), hempty hline]
    rfl
  · rw [Exchange.left, echoed, if_neg hline, List.append_assoc] at houtput
    rw [if_neg (mt hstatus.mp hline), dropLast_recent houtput]

/-- A submission that is answered leaves what it added on top of its echo, and the
empty line adds nothing. -/
theorem exists_left {result : Result} {after : Session W} (hnewline : '\n' ∉ line)
    (hsubmit : submitTyped depth { s with typed := line } = .ok result after) :
    ∃ added, (line = [] → added = []) ∧
      after.output = (Exchange.mk line result added).left ++ s.output := by
  obtain ⟨submitted, h, rfl⟩ := submitTyped_eq_ok hsubmit
  by_cases hline : line = []
  · subst hline
    obtain ⟨-, rfl⟩ := EStateM.Result.ok.inj h
    exact ⟨[], fun _ => rfl, rfl⟩
  · have hsuffix := output_submit_of_ne_nil depth hline { s with typed := line }
    rw [sessionAfter_of_ok h, textLines_echo hnewline] at hsuffix
    obtain ⟨added, hadded⟩ := hsuffix
    refine ⟨added, fun h => absurd h hline, ?_⟩
    rw [Exchange.left, echoed, if_neg hline, List.append_assoc]
    exact hadded.symm

theorem exists_serves_loop (depth : ℕ) (prompt : Text) (hs : s.Behaves)
    (hlines : ∀ line ∈ lines, '\n' ∉ line) :
    ∃ exchanges unread last, Serves depth lines s exchanges unread last ∧
      loop depth prompt (lines.map .line) s =
        ⟨last, exchanges.flatMap (Exchange.written prompt) ++ [.prompt prompt],
          unread.map .line, none⟩ := by
  induction lines generalizing s with
  | nil => exact ⟨[], [], s, .finished s, rfl⟩
  | cons line rest ih =>
      obtain ⟨hline, hrest⟩ := List.forall_mem_cons.mp hlines
      rw [List.map_cons, loop, turn]
      have htyped : Session.Behaves { s with typed := line } := hs
      rcases submitTyped_cases htyped depth with
        ⟨result, after, hsubmit, hafter, hstatus⟩ | ⟨fault, after, hsubmit, hexit⟩
      · obtain ⟨added, hempty, houtput⟩ := exists_left hline hsubmit
        obtain ⟨exchanges, unread, last, hserves, hloop⟩ := ih hafter hrest
        refine ⟨⟨line, result, added⟩ :: exchanges, unread, last,
          .answered rfl hsubmit houtput hserves, ?_⟩
        rw [hsubmit]
        dsimp only
        rw [hloop, List.flatMap_cons, List.append_assoc, ← cons_shownLines hstatus hempty houtput]
      · refine ⟨[], rest, after, .asked hsubmit hexit, ?_⟩
        rw [hsubmit]
        dsimp only
        rw [if_pos hexit]
        rfl

/-- The session that a frontend starts its loop in. -/
def opened (frontend : Frontend) (s : Session W) : Session W :=
  if frontend.showsConsole then { s with isOpen := true } else s

/-- The session that a frontend leaves at the end of its loop. -/
def closed (frontend : Frontend) (s : Session W) : Session W :=
  if frontend.showsConsole then { s with isOpen := false } else s

theorem run_eq (depth : ℕ) (frontend : Frontend) (input : List Input) (s : Session W) :
    run depth frontend input s =
      let course := loop depth frontend.prompt input (opened frontend s)
      { course with session := closed frontend course.session } := by
  rw [run, opened]
  by_cases hshows : frontend.showsConsole = true
  · rw [if_pos hshows, if_pos hshows]
    simp only [closed, hshows, if_true]
  · rw [if_neg hshows, if_neg hshows]
    simp only [closed, hshows]
    rfl

/-- In a session whose commands behave, the loop answers the lines up to the first
one that asks to leave, reads no line after it, and ends without a fault.  For each
answered line it writes the prompt and what the submission added to the output on
top of the echo, in red unless the line was executed without a fault.  Together with
the echoes this is all that the answered lines left on the old output.  All this holds
however deep commands may submit lines of their own. -/
theorem run_serves {W : Type} (depth : ℕ) (frontend : Frontend) {lines : List Text}
    (hlines : ∀ line ∈ lines, '\n' ∉ line) {s : Session W} (hs : s.registry.Behaves) :
    ∃ exchanges unread last,
      Serves depth lines (opened frontend s) exchanges unread last ∧
        run depth frontend (lines.map .line) s =
          { session := closed frontend last
            written := exchanges.flatMap (Exchange.written frontend.prompt) ++
              [.prompt frontend.prompt]
            unread := unread.map .line
            fault := none } ∧
        exchanges.reverse.flatMap Exchange.left ++ s.output <:+ last.output := by
  have hregistry : (opened frontend s).registry = s.registry := by
    rw [opened]
    split_ifs <;> rfl
  have houtput : (opened frontend s).output = s.output := by
    rw [opened]
    split_ifs <;> rfl
  have hopened : (opened frontend s).Behaves := by
    rw [Session.Behaves, hregistry]
    exact hs
  obtain ⟨exchanges, unread, last, hserves, hloop⟩ :=
    exists_serves_loop depth frontend.prompt hopened hlines
  refine ⟨exchanges, unread, last, hserves, ?_, ?_⟩
  · rw [run_eq, hloop]
  · rw [← houtput]
    exact hserves.output

/-- A console with a command that prints, submits a line that is not found, registers
a literal and answers with two lines, and with literals that fail and leave. -/
def chatty : Session Unit :=
  ofRegistry
    { commands :=
        [⟨[.fixed [["work".toList]]], 1, fun _ =>
          .print (.text "working".toList) <|
            .submit "rest".toList fun _ =>
              .register (.literal "more".toList fun _ => Script.say "more work".toList) fun _ =>
                Script.say "done\nat last".toList⟩]
      literals :=
        [⟨"break".toList, fun _ => .fail (.saying .failure "broken".toList)⟩,
          ⟨"quit".toList, fun _ => .fail (.silent .exit)⟩] } ()

theorem chatty_behaves : chatty.registry.Behaves := by
  refine ⟨by decide, ?_, ?_, ?_⟩
  · intro c hc slot hslot
    rw [List.mem_singleton.mp hc] at hslot
    rw [List.mem_singleton.mp hslot]
    exact AlwaysSucceeds.pure _
  · intro c hc tokens
    rw [List.mem_singleton.mp hc]
    exact .print nofun (.submit _ fun _ _ =>
      .register trivial (fun _ => .reply _) fun _ _ => .reply _)
  · intro l hl tokens
    rcases List.mem_pair.mp hl with rfl | rfl
    · exact .fail nofun
    · exact .fail nofun

def chattyLines : List Text :=
  ["work".toList, [], "break it".toList, "more".toList, "quit".toList, "work".toList]

theorem run_serves_chatty :
    (∀ line ∈ chattyLines, '\n' ∉ line) ∧ chatty.registry.Behaves ∧
      (run 1 ⟨"> ".toList, true⟩ (chattyLines.map .line) chatty).written =
        [.prompt "> ".toList, .line "working".toList none, .line " >> rest".toList none,
          .line " -- Command not found -- ".toList none, .line "done".toList none,
          .line "at last".toList none, .prompt "> ".toList, .prompt "> ".toList,
          .line "error: command failed".toList (some .red), .prompt "> ".toList,
          .line "more work".toList none, .prompt "> ".toList] ∧
      ∃ exchanges unread last,
        Serves 1 chattyLines (opened ⟨"> ".toList, true⟩ chatty) exchanges unread last ∧
          run 1 ⟨"> ".toList, true⟩ (chattyLines.map .line) chatty =
            { session := closed ⟨"> ".toList, true⟩ last
              written := exchanges.flatMap (Exchange.written "> ".toList) ++
                [.prompt "> ".toList]
              unread := unread.map .line
              fault := none } ∧
          exchanges.reverse.flatMap Exchange.left ++ chatty.output <:+ last.output := by
  have hlines : ∀ line ∈ chattyLines, '\n' ∉ line := by decide
  refine ⟨hlines, chatty_behaves, ?_, run_serves 1 ⟨"> ".toList, true⟩ hlines chatty_behaves⟩
  decide +kernel

end Repl

end AliasConsole
