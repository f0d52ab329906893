import AliasConsole.Fault
import AliasConsole.Value

/-!
# Candidates

A token position of a command accepts alias groups.  Fixed candidates never
change; live candidates are read from the world each time they are needed, and
such a reading may change the world or fail.  Anything else that is handed to
a registration is turned into candidates or refused.
-/

namespace AliasConsole

/-- Interchangeable spellings of one value, the canonical one first. -/
abbrev AliasGroup := List Text

/-- A computation that reads a world, may change it, and may fail. -/
abbrev Reads (W : Type) := EStateM Fault W

/-- What a token position accepts. -/
inductive Candidates (W : Type) where
  | fixed (groups : List AliasGroup)
  | live (read : Reads W (List AliasGroup))

namespace Candidates

variable {W : Type}

def groups : Candidates W → Reads W (List AliasGroup)
  | fixed groups => pure groups
  | live read => read

def isFixed : Candidates W → Bool
  | fixed _ => true
  | live _ => false

end Candidates

namespace AliasGroup

/-- A text is a group of one alias, a list gives one alias per item, for which
there is `room` when it is spelled, a table one per key and an object of another
kind those that it has. -/
def ofValue (room : Nat) : Value → Except Fault AliasGroup
  | .text t => .ok [t]
  | .list items => items.mapM (Value.spell room)
  | .table entries => .ok (entries.map (·.1))
  | .foreign object => object.aliases
  | _ => .error (.silent .wrongType)

/-- One group per value, up to the first value that is none. -/
def ofValues (room : Nat) : List Value → Except Fault (List AliasGroup)
  | [] => .ok []
  | v :: rest => do return (← ofValue room v) :: (← ofValues room rest)

end AliasGroup

namespace Candidates

variable {W : Type}

def ofValues (room : Nat) (items : List Value) : Except Fault (Candidates W) :=
  (AliasGroup.ofValues room items).map fixed

def spelledGroups (room : Nat) (spelling : Value → Except Fault Value) :
    List Value → Except Fault (List AliasGroup)
  | [] => .ok []
  | v :: rest => do
    return (← AliasGroup.ofValue room (← spelling v)) :: (← spelledGroups room spelling rest)

/-- Live candidates with one group per item that a source produces. -/
def ofSource (room : Nat) (source : Reads W (List Value))
    (spelling : Value → Except Fault Value) : Candidates W :=
  live do
    let items ← source
    match spelledGroups room spelling items with
    | .ok groups => pure groups
    | .error fault => throw fault

end Candidates

/-- An argument that a registration gives for one token position: candidates, or a
value with the room for values inside each other there is where it is given. -/
inductive SlotArgument (W : Type) where
  | candidates (slot : Candidates W)
  | value (v : Value) (room : Nat)

namespace SlotArgument

variable {W : Type}

def allTexts? : List Value → Option (List Text)
  | [] => some []
  | .text t :: rest => (allTexts? rest).map (t :: ·)
  | _ :: _ => none

def refused (v : Value) (room : Nat) : Fault :=
  match v.write room with
  | .ok words =>
    .saying .configuration ("Cannot use ".toList ++ words ++ " as a candidate provider.".toList)
  | .error fault => fault

/-- Candidates are used as they are, a text is one group with one alias, and a
sequence of texts is one group. -/
def coerce : SlotArgument W → Except Fault (Candidates W)
  | candidates slot => .ok slot
  | value (.text t) _ => .ok (.fixed [[t]])
  | value (.list items) room =>
    match allTexts? items with
    | some group => .ok (.fixed [group])
    | none => .error (refused (.list items) room)
  | value (.foreign object) room =>
    match object.texts? with
    | some group => .ok (.fixed [group])
    | none => .error (refused (.foreign object) room)
  | value v room => .error (refused v room)

def coerceAll : List (SlotArgument W) → Except Fault (List (Candidates W))
  | [] => .ok []
  | slot :: rest => do return (← slot.coerce) :: (← coerceAll rest)

end SlotArgument

end AliasConsole
