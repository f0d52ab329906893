import AliasConsole.Decimal.Reading
import AliasConsole.Script

/-!
# Variables and arithmetic

Variables are texts under names, kept in the order of the names.  The names
are offered live, so completion and resolution see the variables there are at
that time.  Arithmetic works on two floating point numbers and writes six
digits.
-/

namespace AliasConsole

/-! ## Parts of a world

A plugin works on one part of a larger world, which it can look up and replace.
-/

/-- A part of type `σ` inside a world. -/
structure Part (W σ : Type) where
  get : W → σ
  set : σ → W → W

def Part.modify {W σ : Type} (part : Part W σ) (change : σ → σ) (w : W) : W :=
  part.set (change (part.get w)) w

/-! ## Variables and arithmetic -/

/-- The variables, by increasing name. -/
structure Variables where
  bindings : List (Text × Text)
deriving DecidableEq, Repr

namespace Variables

def empty : Variables := ⟨[]⟩

def names (v : Variables) : List Text := v.bindings.map (·.1)

def get? (v : Variables) (name : Text) : Option Text := v.bindings.lookup name

/-- The bindings with a name bound to a value, at the place of the name. -/
def insert (name value : Text) : List (Text × Text) → List (Text × Text)
  | [] => [(name, value)]
  | (n, old) :: rest =>
    if n = name then (name, value) :: rest
    else if Text.before name n then (name, value) :: (n, old) :: rest
    else (n, old) :: insert name value rest

def set (name value : Text) (v : Variables) : Variables := ⟨insert name value v.bindings⟩

def unset (name : Text) (v : Variables) : Variables :=
  ⟨v.bindings.filter fun binding => binding.1 != name⟩

end Variables

/-- A binding as commands show it. -/
def bindingText (name value : Text) : Text := name ++ " = ".toList ++ value

/-- The four operations. -/
inductive Operation where
  | add
  | sub
  | mul
  | div
deriving DecidableEq, Repr

namespace Operation

def all : List Operation := [add, sub, mul, div]

def spellings : Operation → AliasGroup
  | add => ["add".toList, "plus".toList]
  | sub => ["sub".toList, "minus".toList]
  | mul => ["mul".toList, "times".toList]
  | div => ["div".toList, "over".toList]

def name (o : Operation) : Text := o.spellings.headD []

def ofSpelling (spelling : Text) : Except Fault Operation :=
  match all.find? fun o => o.spellings.contains spelling with
  | some o => .ok o
  | none => .error (.saying .invalidValue ("unknown operation ".toList ++ Text.quoted spelling))

def apply (left right : Float) : Operation → Except Fault Float
  | add => .ok (left + right)
  | sub => .ok (left - right)
  | mul => .ok (left * right)
  | div =>
    if right == 0.0 then .error (.saying .invalidValue "division by zero".toList)
    else .ok (left / right)

end Operation

def operand (t : Text) : Except Fault Float :=
  match Decimal.readFloat? t with
  | some x => .ok x
  | none =>
    .error (.saying .invalidValue ("could not convert string to float: ".toList ++ Text.quoted t))

def tokenAt (tokens : List Text) (index : Nat) : Except Fault Text :=
  match tokens[index]? with
  | some token => .ok token
  | none => .error .outOfRange

def arithmetic (tokens : List Text) : Except Fault Text := do
  let operation ← Operation.ofSpelling (← tokenAt tokens 1)
  let left ← operand (← tokenAt tokens 2)
  let right ← operand (← tokenAt tokens 3)
  return (Decimal.Layout.general 6).text (← operation.apply left right)

namespace Script

variable {W : Type}

def answer : Except Fault Text → Script W
  | .ok t => say t
  | .error fault => fail fault

end Script

namespace Variables

variable {W : Type} (part : Part W Variables)

def liveNames : Candidates W :=
  .live do return ((part.get (← get)).names).map fun name => [name]

def setCommand : Callback W := fun tokens =>
  match tokenAt tokens 1 with
  | .error fault => .fail fault
  | .ok name =>
    let value := Text.joined [' '] (tokens.drop 2)
    .world (part.modify (set name value)) fun _ => .say (bindingText name value)

def getCommand : Callback W := fun tokens =>
  match tokenAt tokens 1 with
  | .error fault => .fail fault
  | .ok name => .look fun w =>
    match (part.get w).get? name with
    | some value => .say (bindingText name value)
    | none => .fail (.saying .missingKey name)

def unsetCommand : Callback W := fun tokens =>
  match tokenAt tokens 1 with
  | .error fault => .fail fault
  | .ok name => .look fun w =>
    match (part.get w).get? name with
    | some _ =>
      .world (part.modify (unset name)) fun _ => .say ("unset ".toList ++ name)
    | none => .fail (.saying .missingKey name)

def listingText (v : Variables) : Text :=
  if v.bindings.isEmpty then "(no variables)".toList
  else Text.joined ['\n'] (v.bindings.map fun binding => bindingText binding.1 binding.2)

def varsCommand : Callback W := fun _ => .look fun w => .say (listingText (part.get w))

/-- One group of names for a position. -/
def oneGroup (names : List String) : SlotArgument W :=
  .candidates (.fixed [names.map String.toList])

def commands : List (Registration W (Script W)) :=
  [.aliases [oneGroup ["set", "let"], .candidates (liveNames part)] (some 1) (setCommand part),
   .aliases [oneGroup ["get", "print"], .candidates (liveNames part)] (some 1) (getCommand part),
   .aliases [oneGroup ["unset", "del"], .candidates (liveNames part)] none (unsetCommand part),
   .aliases [oneGroup ["vars", "variables"]] none (varsCommand part),
   .aliases
     [oneGroup ["math", "calc"], .candidates (.fixed (Operation.all.map Operation.spellings))]
     none fun tokens => .answer (arithmetic tokens)]

end Variables

end AliasConsole
