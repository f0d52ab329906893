import AliasConsole.Logging.Field

/-!
# Messages with arguments

A message may hold directives, which start with a percent sign and end in the
letter of a conversion; two percent signs stand for one.  A directive takes the
next argument, or the one of a name in parentheses.  A star
in the place of a width or a precision takes an argument for it first.  A
message that does not fit its arguments is not filled in.
-/

namespace AliasConsole.Message

inductive Amount where
  | given (n : Nat)
  | argument
deriving DecidableEq, Repr

/-- Which argument is written, and how. -/
structure Directive where
  key : Option Text
  flags : Text
  width : Amount
  precision : Option Amount
  conversion : Char
deriving DecidableEq, Repr

/-- An amount at the start of a text, zero if there is none, and the rest. -/
def Amount.read : Text → Amount × Text
  | '*' :: rest => (.argument, rest)
  | t =>
    (.given (Decimal.ofDigits ((t.takeWhile Char.isDigit).map fun c => c.toNat - 48)),
      t.dropWhile Char.isDigit)

/-- The name up to the parenthesis that closes it, and the rest; `depth`
parentheses inside of it are open. -/
def readKey? : Nat → Text → Option (Text × Text)
  | _, [] => none
  | 0, ')' :: rest => some ([], rest)
  | depth, c :: rest =>
    let depth := if c = '(' then depth + 1 else if c = ')' then depth - 1 else depth
    (readKey? depth rest).map fun (key, after) => (c :: key, after)

namespace Directive

/-- A directive after its percent sign and its name, and the rest.  A letter for
the length of a number says nothing. -/
def readUnnamed (key : Option Text) (t : Text) : Option (Directive × Text) :=
  let flags := t.takeWhile flagChars.contains
  let (width, t) := Amount.read (t.dropWhile flagChars.contains)
  let (precision, t) := match t with
    | '.' :: rest => (some (Amount.read rest).1, (Amount.read rest).2)
    | t => (none, t)
  let t := match t with
    | 'h' :: rest | 'l' :: rest | 'L' :: rest => rest
    | t => t
  match t with
  | [] => none
  | conversion :: rest => some (⟨key, flags, width, precision, conversion⟩, rest)

def read : Text → Option (Directive × Text)
  | '(' :: rest => (readKey? 0 rest).bind fun (key, after) => readUnnamed (some key) after
  | t => readUnnamed none t

end Directive

/-- The arguments of a message: in order, or by name.  Of named arguments one is
at hand until it is taken: first all of them as a whole, then the one that was
named last. -/
inductive Arguments where
  | inOrder (values : List Value)
  | named (entries : List (Text × Value)) (atHand : Option Value)

namespace Arguments

/-- Arguments as they are given; a single table that is not empty names them. -/
def ofList : List Value → Arguments
  | [.table (e :: rest)] => .named (e :: rest) (some (.table (e :: rest)))
  | values => .inOrder values

/-- Puts the argument of a name at hand. -/
def select : Arguments → Option Text → Option Arguments
  | arguments, none => some arguments
  | .named entries _, some key => (entries.lookup key).map fun v => .named entries (some v)
  | .inOrder _, some _ => none

def take : Arguments → Option (Value × Arguments)
  | .inOrder (v :: rest) => some (v, .inOrder rest)
  | .named entries (some v) => some (v, .named entries none)
  | .inOrder [] | .named _ none => none

def areUsed : Arguments → Bool
  | .inOrder values => values.isEmpty
  | .named .. => true

end Arguments

/-- An amount that is not too large, with the arguments that are left. -/
def Amount.resolve (amount : Amount) (arguments : Arguments) : Option (Int × Arguments) := do
  let (n, arguments) ← match amount with
    | .given n => some ((n : Int), arguments)
    | .argument => do
      let (v, arguments) ← arguments.take
      some (← Field.integer? v, arguments)
  if -maxAmount ≤ n + 1 && n ≤ maxAmount then some (n, arguments) else none

/-- The field of a directive.  A negative width moves the text to the left, and
a negative precision counts as zero. -/
def Directive.field (d : Directive) (arguments : Arguments) : Option (Field × Arguments) := do
  let (width, arguments) ← d.width.resolve arguments
  let flags := if width < 0 then '-' :: d.flags else d.flags
  match d.precision with
  | none => return (⟨flags, width.natAbs, none⟩, arguments)
  | some amount =>
    let (precision, arguments) ← amount.resolve arguments
    return (⟨flags, width.natAbs, some precision.toNat⟩, arguments)

/-- What a directive writes, and the arguments that are left.  A value is written
with `room` for values inside each other. -/
def Directive.apply (room : Nat) (d : Directive) (arguments : Arguments) :
    Option (Text × Arguments) := do
  let (field, arguments) ← d.field (← arguments.select d.key)
  let (v, arguments) ← arguments.take
  return (← field.fill room d.conversion v, arguments)

/-- A message of at most `fuel` characters with its arguments filled in. -/
def fillFrom (room : Nat) : Nat → Arguments → Text → Option Text
  | 0, arguments, _ | _ + 1, arguments, [] => if arguments.areUsed then some [] else none
  | fuel + 1, arguments, '%' :: '%' :: rest => (fillFrom room fuel arguments rest).map ('%' :: ·)
  | fuel + 1, arguments, '%' :: rest => do
    let (d, rest) ← Directive.read rest
    let (t, arguments) ← d.apply room arguments
    return t ++ (← fillFrom room fuel arguments rest)
  | fuel + 1, arguments, c :: rest => (fillFrom room fuel arguments rest).map (c :: ·)

/-- A message with its arguments filled in; without arguments it stays as it is. -/
def filled? (room : Nat) (arguments : List Value) (t : Text) : Option Text :=
  if arguments.isEmpty then some t
  else fillFrom room (t.length + 1) (.ofList arguments) t

end AliasConsole.Message
