import AliasConsole.Session.Basic

/-!
# Submitting lines

A submitted line is recorded, echoed, resolved and executed.  The echo comes
before everything that the command prints, and the result comes last.  A
command that fails is answered with one of three error lines; only a fault that
no command may swallow passes through.  Commands may submit lines of their own,
as many levels deep as there is room for where the first line is submitted.
-/

namespace AliasConsole.Session

variable {W : Type}

def echo (line : Text) : Text := " >> ".toList ++ line

def notFoundLine : Text := " -- Command not found -- ".toList

def outOfRangeLine : Text := "error: argument out of range".toList

def invalidLine : Text := "error: invalid argument".toList

def failedLine : Text := "error: command failed".toList

/-- What a fault of a command is answered with and how it is noted; none for a
fault that no command may swallow. -/
def answerTo (line : Text) (fault : Fault) : Option (Text × Level × Text) :=
  let told := "Command ".toList ++ Text.quoted line
  if fault.kind.isLookup then
    some (outOfRangeLine, .warning, told ++ ": ".toList ++ fault.message)
  else if fault.kind.isValue then
    some (invalidLine, .warning, told ++ ": ".toList ++ fault.message)
  else if fault.kind.isDeparture then none
  else some (failedLine, .error, told ++ " failed".toList)

/-- Makes the fault of an action an answer. -/
def attempt {α : Type} (action : Action W α) : Action W (Except Fault α) :=
  tryCatch (do return .ok (← action)) fun fault => pure (.error fault)

/-- Carries out a script; `nested` says what it is to submit a line. -/
def perform (nested : Text → Action W Result) : Script W → Action W Value
  | .reply message => pure message
  | .fail fault => throw fault
  | .world change next => do
    let s ← get
    set { s with world := change s.world }
    perform nested (next s.world)
  | .print message next => do
    print message
    perform nested next
  | .submit line next => do
    perform nested (next (← attempt (nested line)))
  | .register request next => do
    perform nested (next (← attempt (register request)))
  | .listing next => do
    perform nested (next (← get).registry.listing)

def execute (nested : Text → Action W Result) (line : Text) (script : Script W) :
    Action W Result := do
  match ← attempt (perform nested script) with
  | .ok message => pure ⟨.ok, message⟩
  | .error fault =>
    match answerTo line fault with
    | none => throw fault
    | some (answer, level, told) =>
      report level consoleLogger told
      pure ⟨.error, .text answer⟩

def resolvedTo (line : Text) (selection : Selection) : Text :=
  "Resolved ".toList ++ Text.quoted line ++ " to ".toList ++ selection.kindText ++
    " command #".toList ++ Text.ofNat selection.index

/-- Submits a line; `nested` says what it is for a command to submit one. -/
def submitWith (nested : Text → Action W Result) (line : Text) : Action W Result := do
  modify fun s => { s with history := s.history.submit line }
  if line.isEmpty then return ⟨.empty, .text []⟩
  print (.text (echo line))
  let tokens := tokenize line
  let registry := (← get).registry
  match ← reading (registry.resolve tokens line) with
  | none =>
    report .debug consoleLogger ("No command matches ".toList ++ Text.quoted line)
    print (.text notFoundLine)
    return ⟨.notFound, .text notFoundLine⟩
  | some selection =>
    report .debug consoleLogger (resolvedTo line selection)
    let script := match registry.callback? selection with
      | some callback => callback tokens
      | none => .fail .outOfRange
    let result ← execute nested line script
    print result.message
    return result

/-- Submits a line at a place with room for `depth` levels of lines. -/
def submitAt : Nat → Text → Action W Result
  | 0, _ => throw .tooDeep
  | depth + 1, line => submitWith (submitAt depth) line

/-- Submits a line whose command may submit lines of its own, `depth` levels deep. -/
def submit (depth : Nat) (line : Text) : Action W Result := submitAt (depth + 1) line

end AliasConsole.Session
