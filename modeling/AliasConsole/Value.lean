import AliasConsole.Calendar
import AliasConsole.Decimal.Layout
import AliasConsole.Decimal.Reading
import AliasConsole.Fault

/-!
# Values

A value is an entry of a configuration document, an argument that someone
tries to register, or what a command hands back.  Every value has an exact
written form, in which texts are quoted, and a plain text, in which a text is
itself and calendar values have their international form.  Where a value of any
size may come in, it is written within limits: no integer of too many digits,
and no deeper nesting than there is room for where it is written.
-/

namespace AliasConsole

/-- An object of another kind, as far as the program can tell. -/
structure Foreign where
  /-- Its written form, which is also its plain text. -/
  form : Text
  /-- What cutting it into lines gives; no lines at all if it counts as absent. -/
  lines : Except Fault (Option (List Text))
  /-- What spelling its items one after the other gives. -/
  aliases : Except Fault (List Text)
  /-- Its items, if it is a sequence of nothing but texts. -/
  texts? : Option (List Text)

/-- A dynamically typed value. -/
inductive Value where
  | null
  | bool (b : Bool)
  | int (n : Int)
  | float (x : Float)
  | text (t : Text)
  | list (items : List Value)
  | table (entries : List (Text × Value))
  | date (d : Date)
  | time (t : TimeOfDay)
  | moment (d : Date) (t : TimeOfDay) (offset : Option Int)
  | foreign (object : Foreign)

instance : Inhabited Value := ⟨.null⟩

namespace Value

def boolText (b : Bool) : Text := if b then "True".toList else "False".toList

/-- Pieces between two brackets, separated by commas. -/
def enclosed (opening closing : Char) (pieces : List Text) : Text :=
  opening :: Text.joined ", ".toList pieces ++ [closing]

mutual

/-- The exact written form of a value. -/
def written : Value → Text
  | null => "None".toList
  | bool b => boolText b
  | int n => Text.ofInt n
  | float x => Decimal.Layout.exact.text x
  | text t => Text.quoted t
  | list items => enclosed '[' ']' (writtenItems items)
  | table entries => enclosed (Char.ofNat 0x7B) (Char.ofNat 0x7D) (writtenEntries entries)
  | date d => constructorText "datetime.date".toList d.components
  | time t => constructorText "datetime.time".toList t.components
  | moment d t offset =>
    constructorText "datetime.datetime".toList
      (d.components ++ t.components ++
        match offset with
        | none => []
        | some minutes => ["tzinfo=".toList ++ offsetConstructor minutes])
  | foreign object => object.form

def writtenItems : List Value → List Text
  | [] => []
  | v :: rest => written v :: writtenItems rest

def writtenEntries : List (Text × Value) → List Text
  | [] => []
  | (key, v) :: rest => (Text.quoted key ++ ": ".toList ++ written v) :: writtenEntries rest

end

/-- The international form of a moment, with a chosen mark between the date
and the time. -/
def momentText (mark : Char) (d : Date) (t : TimeOfDay) (offset : Option Int) : Text :=
  d.text ++ mark :: t.text ++ (match offset with
    | none => []
    | some minutes => offsetText minutes)

/-- The plain text of a value. -/
def plain : Value → Text
  | text t => t
  | date d => d.text
  | time t => t.text
  | moment d t offset => momentText ' ' d t offset
  | v => written v

/-- An integer has too many digits to be written. -/
def isTooLong (n : Int) : Bool := (Text.ofNat n.natAbs).length > Decimal.maxIntegerDigits

mutual

/-- The first reason in a value not to write it, with `room` for as many values
inside each other. -/
def obstacle? : Value → Nat → Option Fault
  | _, 0 => some .nestedTooDeep
  | int n, _ + 1 =>
    if isTooLong n then some (.integerTooLong Decimal.maxIntegerDigits) else none
  | list items, room + 1 => itemsObstacle? items room
  | table entries, room + 1 => entriesObstacle? entries room
  | _, _ + 1 => none

def itemsObstacle? : List Value → Nat → Option Fault
  | [], _ => none
  | v :: rest, room => (obstacle? v room).or (itemsObstacle? rest room)

def entriesObstacle? : List (Text × Value) → Nat → Option Fault
  | [], _ => none
  | (_, v) :: rest, room => (obstacle? v room).or (entriesObstacle? rest room)

end

/-- The written form of a value within the limits, with `room` for values inside
each other below it. -/
def write (room : Nat) (v : Value) : Except Fault Text :=
  match v.obstacle? (room + 1) with
  | some fault => .error fault
  | none => .ok v.written

/-- The plain text of a value within the limits. -/
def spell (room : Nat) (v : Value) : Except Fault Text :=
  match v.obstacle? (room + 1) with
  | some fault => .error fault
  | none => .ok v.plain

/-- Nothing, zero, false and everything empty count as absent. -/
def isAbsent : Value → Bool
  | null => true
  | bool b => !b
  | int n => n == 0
  | float x => x == 0.0
  | text t => t.isEmpty
  | list items => items.isEmpty
  | table entries => entries.isEmpty
  | foreign ⟨_, .ok none, _, _⟩ => true
  | _ => false

end Value

end AliasConsole
