import AliasConsole.Text.Basic
import AliasConsole.Text.Printable

/-!
# Reading numbers

A number may stand between blanks.  A run of digits may be broken by single
underscores between two digits, and the digits may be of any script.  An integer
is a run after an optional sign; a decimal number has an optional fraction and
exponent, or is one of the words for infinity and for the undefined value.
-/

/-! ## Decimal digits of every script

Each script with decimal digits has ten of them in a row, so a digit is known
by the zero of its row.
-/

namespace AliasConsole

/-- The zeros of the rows of ten decimal digits. -/
def digitZeros : List Nat :=
  [0x30, 0x660, 0x6F0, 0x7C0, 0x966, 0x9E6, 0xA66, 0xAE6, 0xB66, 0xBE6, 0xC66, 0xCE6, 0xD66,
   0xDE6, 0xE50, 0xED0, 0xF20, 0x1040, 0x1090, 0x17E0, 0x1810, 0x1946, 0x19D0, 0x1A80, 0x1A90,
   0x1B50, 0x1BB0, 0x1C40, 0x1C50, 0xA620, 0xA8D0, 0xA900, 0xA9D0, 0xA9F0, 0xAA50, 0xABF0,
   0xFF10, 0x104A0, 0x10D30, 0x11066, 0x110F0, 0x11136, 0x111D0, 0x112F0, 0x11450, 0x114D0,
   0x11650, 0x116C0, 0x11730, 0x118E0, 0x11950, 0x11C50, 0x11D50, 0x11DA0, 0x16A60, 0x16AC0,
   0x16B50, 0x1D7CE, 0x1D7D8, 0x1D7E2, 0x1D7EC, 0x1D7F6, 0x1E140, 0x1E2F0, 0x1E950, 0x1FBF0]

/-- The number that a decimal digit of any script stands for. -/
def digitValue? (c : Char) : Option Nat :=
  (digitZeros.find? fun first => first ≤ c.toNat && c.toNat ≤ first + 9).map (c.toNat - ·)

end AliasConsole

/-! ## Numbers -/

namespace AliasConsole.Decimal

inductive IntegerRefusal where
  | malformed
  | tooLong (digits : Nat)
deriving DecidableEq, Repr

/-- Integers of more digits are refused. -/
def maxIntegerDigits : Nat := 4300

/-- A blank that may stand around a number: any but the four separators of
records. -/
def isMargin (c : Char) : Bool :=
  isBlank c && !(0x1C ≤ c.toNat && c.toNat ≤ 0x1F)

/-- A text without the blanks around it. -/
def withoutMargins (t : Text) : Text :=
  ((t.dropWhile isMargin).reverse.dropWhile isMargin).reverse

def startsWithDigit : Text → Bool
  | [] => false
  | c :: _ => (digitValue? c).isSome

/-- The digits at the start of a text and what follows them.  An underscore is
passed over only between two digits; `afterDigit` says that one stands before. -/
def digitRunFrom (afterDigit : Bool) : Text → List Nat × Text
  | [] => ([], [])
  | c :: rest =>
    match digitValue? c with
    | some d =>
      let run := digitRunFrom true rest
      (d :: run.1, run.2)
    | none =>
      if c = '_' && afterDigit && startsWithDigit rest then digitRunFrom false rest
      else ([], c :: rest)

def digitRun (t : Text) : List Nat × Text := digitRunFrom false t

def ofDigits (digits : List Nat) : Nat := digits.foldl (fun n d => 10 * n + d) 0

/-- A text without its sign, and whether the sign was a minus. -/
def unsigned : Text → Bool × Text
  | '-' :: rest => (true, rest)
  | '+' :: rest => (false, rest)
  | t => (false, t)

/-- The integer that a text denotes.  A misplaced underscore is noticed before
the number of digits is, and anything else that follows the digits after it. -/
def readInteger (t : Text) : Except IntegerRefusal Int :=
  let (negative, body) := unsigned (withoutMargins t)
  let (digits, rest) := digitRun body
  if digits.isEmpty || rest.head? = some '_' then .error .malformed
  else if digits.length > maxIntegerDigits then .error (.tooLong digits.length)
  else if rest.isEmpty then
    .ok (if negative then -(ofDigits digits : Int) else ofDigits digits)
  else .error .malformed

/-- The words for a text that is no integer.  The quoted text is cut after two
hundred characters. -/
def IntegerRefusal.text (t : Text) : IntegerRefusal → Text
  | .malformed =>
    "invalid literal for int() with base 10: ".toList ++ (Text.quoted t).take 200
  | .tooLong digits =>
    "Exceeds the limit (4300 digits) for integer string conversion: value has ".toList ++
      Text.ofNat digits ++ " digits; use sys.set_int_max_str_digits() to increase the limit".toList

/-- The floating point number nearest to `mantissa · 10 ^ exponent`.  Exponents
beyond the range of the format are answered without computing the power. -/
def nearestFloat (mantissa : Nat) (exponent : Int) : Float :=
  if mantissa = 0 then 0
  else
    let magnitude : Int := exponent + (Nat.toDigits 10 mantissa).length
    if magnitude > 400 then 1.0 / 0.0
    else if magnitude < -400 then 0
    else if exponent < 0 then Float.ofScientific mantissa true exponent.natAbs
    else Float.ofScientific mantissa false exponent.natAbs

def readSpecial? (t : Text) : Option Float :=
  let word := t.map Char.toLower
  if word = "inf".toList || word = "infinity".toList then some (1.0 / 0.0)
  else if word = "nan".toList then some (0.0 / 0.0)
  else none

/-- The exponent at the end of a decimal number: nothing, or a mark, an
optional sign and digits. -/
def readExponent? : Text → Option Int
  | [] => some 0
  | mark :: rest =>
    if mark = 'e' || mark = 'E' then
      let (negative, body) := unsigned rest
      match digitRun body with
      | ([], _) => none
      | (_, _ :: _) => none
      | (digits, []) => some (if negative then -(ofDigits digits : Int) else ofDigits digits)
    else none

def readUnsignedFloat? (t : Text) : Option Float :=
  let (whole, afterWhole) := digitRun t
  let (fraction, afterFraction) :=
    match afterWhole with
    | '.' :: rest => digitRun rest
    | _ => ([], afterWhole)
  if whole.isEmpty && fraction.isEmpty then readSpecial? t
  else (readExponent? afterFraction).map fun exponent =>
    nearestFloat (ofDigits (whole ++ fraction)) (exponent - fraction.length)

def readFloat? (t : Text) : Option Float :=
  let (negative, body) := unsigned (withoutMargins t)
  (readUnsignedFloat? body).map fun x => if negative then -x else x

end AliasConsole.Decimal
