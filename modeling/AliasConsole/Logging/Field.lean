import AliasConsole.Value

/-!
# Fields of a message

A field is the room that an argument takes in a message.  It has a width, which
is filled up, a precision, and flags: a minus moves the text to the left, a zero
fills numbers with zeros behind their sign, a plus and a blank mark numbers that
are not negative, and a number sign asks for the mark of a base or for a point.
-/

namespace AliasConsole.Message

structure Field where
  flags : Text
  width : Nat
  precision : Option Nat
deriving DecidableEq, Repr

/-- The flags that a field may have. -/
def flagChars : Text := "-+ #0".toList

/-- Wider fields and finer precisions are refused. -/
def maxAmount : Nat := 2147483647

namespace Field

/-- A text filled up with blanks to the width of a field. -/
def padded (f : Field) (t : Text) : Text :=
  let blanks := Text.spaces (f.width - t.length)
  if f.flags.contains '-' then t ++ blanks else blanks ++ t

/-- A text cut to the precision of a field and filled up. -/
def textual (f : Field) (t : Text) : Text :=
  f.padded (match f.precision with
    | some n => t.take n
    | none => t)

def sign (f : Field) (isNegative : Bool) : Text :=
  if isNegative then ['-']
  else if f.flags.contains '+' then ['+']
  else if f.flags.contains ' ' then [' ']
  else []

/-- A number behind its front, which is a sign and the mark of a base; zeros
come between the two. -/
def numeric (f : Field) (front size : Text) : Text :=
  if f.flags.contains '0' && !f.flags.contains '-' then
    front ++ List.replicate (f.width - front.length - size.length) '0' ++ size
  else f.padded (front ++ size)

def integral (f : Field) (base : Nat) (mark : Text) (n : Int) : Option Text :=
  let precision := f.precision.getD 0
  if maxAmount < precision + 3 then none
  else
    let digits := Nat.toDigits base n.natAbs
    some (f.numeric (f.sign (n < 0) ++ if f.flags.contains '#' then mark else [])
      (List.replicate (precision - digits.length) '0' ++ digits))

def floating (f : Field) (layout : Decimal.Layout) (x : Float) : Text :=
  f.numeric (f.sign (Decimal.hasMinus x)) (layout.unsigned x)

/-- The layout of a conversion, with six digits or places unless the field has a
precision. -/
def layout? (f : Field) (conversion : Char) : Option Decimal.Layout :=
  let precision := f.precision.getD 6
  let count := max precision 1
  let pointed (digits : Nat) (layout : Decimal.Layout) :=
    if f.flags.contains '#' then layout.pointed digits else layout
  match conversion with
  | 'f' => some (pointed 0 (.fixed precision))
  | 'e' => some (pointed 0 (.scientific precision))
  | 'g' => some (pointed count (.general count))
  | _ => none

def integer? : Value → Option Int
  | .int n => some n
  | .bool b => some (if b then 1 else 0)
  | _ => none

def wholePart? : Value → Option Int
  | .float x => if x.isFinite then some (Decimal.truncated x) else none
  | v => integer? v

/-- The floating point number that a value counts as; an integer must not be too
large for one. -/
def float? : Value → Option Float
  | .float x => some x
  | v => do
    let x := Decimal.nearestFloatOfInt (← integer? v)
    if x.isFinite then some x else none

/-- The character of a value: a text of one character, or a code point. -/
def character? : Value → Option Text
  | .text [c] => some [c]
  | v =>
    match integer? v with
    | some (.ofNat n) => if n.isValidChar then some [Char.ofNat n] else none
    | _ => none

/-- The field with a value in it, which is written with `room` for values inside
each other. -/
def fill (room : Nat) (f : Field) (conversion : Char) (v : Value) : Option Text :=
  match conversion with
  | 's' => (v.spell room).toOption.map f.textual
  | 'r' => (v.write room).toOption.map f.textual
  | 'a' => (v.write room).toOption.map fun t => f.textual (Text.inAscii t)
  | 'd' | 'i' | 'u' => (wholePart? v).bind (f.integral 10 [])
  | 'o' => (integer? v).bind (f.integral 8 ['0', 'o'])
  | 'x' => (integer? v).bind (f.integral 16 ['0', 'x'])
  | 'X' => ((integer? v).bind (f.integral 16 ['0', 'x'])).map (·.map Char.toUpper)
  | 'c' => (character? v).map f.padded
  | 'E' | 'F' | 'G' => do
    return (f.floating (← f.layout? conversion.toLower) (← float? v)).map Char.toUpper
  | _ => do return f.floating (← f.layout? conversion) (← float? v)

end Field

end AliasConsole.Message
