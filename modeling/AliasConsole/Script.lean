import AliasConsole.Candidates

/-!
# What commands do

A command answers the tokens of its line with a script: it may look at the
world and change it, print, submit a line of its own, register commands, list
the commands there are, and it ends with a reply or a fault.  A script is data;
the console decides what each of its steps means.
-/

namespace AliasConsole

inductive Status where
  | ok
  | error
  | notFound
  | empty
deriving DecidableEq, Repr

def Status.name : Status → Text
  | .ok => "ok".toList
  | .error => "error".toList
  | .notFound => "not_found".toList
  | .empty => "empty".toList

structure Result where
  status : Status
  message : Value

/-- The line was executed without a fault. -/
def Result.isOk (r : Result) : Bool := r.status == .ok

/-- The line named a command. -/
def Result.isFound (r : Result) : Bool := r.status != .notFound

/-- A request to register a command, whose behaviour has the type `B`.  A
missing count of fixed tokens stands for all positions. -/
inductive Registration (W B : Type) where
  | aliases (slots : List (SlotArgument W)) (fixed : Option Int) (callback : List Text → B)
  | literal (text : Text) (callback : List Text → B)

/-- The steps of a command. -/
inductive Script (W : Type) where
  | reply (message : Value)
  | fail (fault : Fault)
  | world (change : W → W) (next : W → Script W)
  | print (message : Value) (next : Script W)
  | submit (line : Text) (next : Except Fault Result → Script W)
  | register (request : Registration W (Script W)) (next : Except Fault Unit → Script W)
  | listing (next : Text → Script W)

/-- What a command does with the tokens of its line. -/
abbrev Callback (W : Type) := List Text → Script W

namespace Script

variable {W : Type}

def say (t : Text) : Script W := reply (.text t)

def look (next : W → Script W) : Script W := world id next

/-- Runs a reading of the world and goes on with what it gave. -/
def reading {α : Type} (read : Reads W α) (next : α → Script W) : Script W :=
  world
    (fun w => match read w with
      | .ok _ after => after
      | .error _ after => after)
    (fun w => match read w with
      | .ok a _ => next a
      | .error fault _ => fail fault)

/-- Registers the commands of a list in order and then goes on; the first
refusal is the fault of the whole. -/
def enrol : List (Registration W (Script W)) → Script W → Script W
  | [], next => next
  | request :: rest, next =>
    register request fun
      | .ok _ => enrol rest next
      | .error fault => fail fault

end Script

end AliasConsole
