import AliasConsole.Escape
import AliasConsole.Session.Keys

/-!
# Reading and printing

The loop reads lines from a frontend, submits each one and shows the output
lines that it added, all but its own echo, which the prompt already shows.
Lines that do not belong to a successful result are shown in red.  The loop ends
at the end of the input, at an interruption and at a request to exit; any other
fault leaves it.  Every line is submitted at the same place, so the commands of
all of them may submit lines of their own equally deep.
-/

namespace AliasConsole

/-- What a frontend delivers instead of the end of the input. -/
inductive Input where
  | line (text : Text)
  | interrupt
deriving DecidableEq, Repr

structure Frontend where
  /-- What is written before each line is read. -/
  prompt : Text
  /-- The frontend shows the console: it opens it at the start and closes it at
  the end. -/
  showsConsole : Bool
deriving DecidableEq, Repr

/-- The course of a loop: the session at its end, what it wrote, the input that
it did not read, and the fault that left it, if any. -/
structure ReplRun (W : Type) where
  session : Session W
  written : List Written
  unread : List Input
  fault : Option Fault

/-- The outcome of one line of the loop: it goes on, it ends, or a fault leaves
it. -/
inductive Turn where
  | shows (lines : List Written)
  | ends
  | leaves (fault : Fault)
deriving DecidableEq, Repr

namespace Repl

variable {W : Type}

/-- The output lines that are shown after a result: those that were added since
the output had `before` lines, oldest first, without the echo. -/
def shownLines (before : Nat) (s : Session W) (result : Result) : List Written :=
  if result.status = .empty then []
  else (s.recent ((s.output.length : Int) - before)).dropLast.reverse.map fun v =>
    .line v.plain (if result.isOk then none else some .red)

def turn (depth : Nat) (text : Text) (s : Session W) : Turn × Session W :=
  match Session.submitTyped depth { s with typed := text } with
  | .ok result after => (.shows (shownLines s.output.length after result), after)
  | .error fault after => (if fault.kind.isExit then .ends else .leaves fault, after)

/-- The loop on the rest of the input. -/
def loop (depth : Nat) (prompt : Text) : List Input → Session W → ReplRun W
  | [], s => ⟨s, [.prompt prompt], [], none⟩
  | .interrupt :: rest, s => ⟨s, [.prompt prompt], rest, none⟩
  | .line text :: rest, s =>
    match turn depth text s with
    | (.shows lines, after) =>
      let run := loop depth prompt rest after
      { run with written := .prompt prompt :: lines ++ run.written }
    | (.ends, after) => ⟨after, [.prompt prompt], rest, none⟩
    | (.leaves fault, after) => ⟨after, [.prompt prompt], rest, some fault⟩

/-- The whole loop, between the start and the end of the frontend. -/
def run (depth : Nat) (frontend : Frontend) (input : List Input) (s : Session W) : ReplRun W :=
  if frontend.showsConsole then
    let run := loop depth frontend.prompt input { s with isOpen := true }
    { run with session := { run.session with isOpen := false } }
  else loop depth frontend.prompt input s

end Repl

/-- The lines of an input text; a last line need not be ended. -/
def inputLines (t : Text) : List Input :=
  let pieces := Text.pieces '\n' t
  (if pieces.getLast? = some [] then pieces.dropLast else pieces).map .line

end AliasConsole
