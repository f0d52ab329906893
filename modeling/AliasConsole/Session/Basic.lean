import AliasConsole.Completion.Basic
import AliasConsole.History
import AliasConsole.Logging.Logger
import AliasConsole.Usage

/-!
# Sessions

A session is everything a console owns: the commands, the history, the output,
the typed line, whether the console is open, the suggestions of the last
completion and the journal of what was reported.  It carries the world that
live candidates and commands work on.  What happens in a session is an action:
it changes the session, and when it ends in a fault the changes made so far
stay.
-/

namespace AliasConsole

structure Session (W : Type) where
  registry : Registry W
  history : History
  /-- The output lines, newest first. -/
  output : List Value
  typed : Text
  isOpen : Bool
  height : Int
  suggestions : List Suggestion
  /-- The records so far, oldest first. -/
  journal : List Record
  world : W

/-- A change of a session with an answer or a fault. -/
abbrev Action (W α : Type) := EStateM Fault (Session W) α

namespace Session

variable {W : Type}

/-- A session with the commands of a registry and nothing else. -/
def ofRegistry (registry : Registry W) (world : W) : Session W :=
  { registry
    history := .fresh
    output := []
    typed := []
    isOpen := false
    height := 10
    suggestions := []
    journal := []
    world }

def report (level : Level) (logger message : Text) : Action W Unit :=
  modify fun s => { s with journal := s.journal ++ [⟨level, logger, message⟩] }

/-- Runs a reading of the world; what it changes stays changed. -/
def reading {α : Type} (read : Reads W α) : Action W α := fun s =>
  match read s.world with
  | .ok a world => .ok a { s with world }
  | .error fault world => .error fault { s with world }

/-- The output lines of a message: the lines of a text, and an absent value as it
is.  An object of another kind is cut into lines in its own way; nothing else can
be printed. -/
def outputLines : Value → Except Fault (List Value)
  | .text t => .ok ((Text.pieces '\n' t).map .text)
  | .foreign object => do
    match ← object.lines with
    | some lines => return lines.map .text
    | none => return [.foreign object]
  | v => if v.isAbsent then .ok [v] else .error .notText

def print (message : Value) : Action W Unit := do
  match outputLines message with
  | .ok lines => modify fun s => { s with output := lines.reverse ++ s.output }
  | .error fault => throw fault

def registered (index fixed : Nat) : Text :=
  "Registered command #".toList ++ Text.ofNat index ++ " (".toList ++ Text.ofNat fixed ++
    " fixed tokens)".toList

def register (request : Registration W (Script W)) : Action W Unit := do
  let s ← get
  match s.registry.register request with
  | .error fault => throw fault
  | .ok registry =>
    set { s with registry }
    if s.registry.commands.length < registry.commands.length then
      report .debug registryLogger
        (registered s.registry.commands.length
          ((registry.commands.getLast?.map (·.fixed)).getD 0))

def registerAll : List (Registration W (Script W)) → Action W Unit
  | [] => pure ()
  | request :: rest => do
    register request
    registerAll rest

def listCommand : Registration W (Script W) :=
  .aliases [.candidates (.fixed [["list".toList]])] (some 1) fun _ => .listing Script.say

/-- A console on a registry: the banner is printed unless it is empty, and the
command that lists all commands is registered. -/
def start (height : Int) (banner : Option Text) : Action W Unit := do
  modify fun s => { s with height }
  match banner with
  | none => pure ()
  | some text => unless text.isEmpty do print (.text text)
  register listCommand

def recent (s : Session W) (count : Int) : List Value := s.output.take count.toNat

/-- The lines that fit a height, by default that of the console. -/
def visible (s : Session W) (height : Option Int) : List Value :=
  s.recent (height.getD s.height)

end Session

end AliasConsole
