import AliasConsole.Decimal.Reading
import AliasConsole.Toml.Scanner

/-!
# Numbers, dates and times in TOML

Dates and times are tried before numbers, since both start with digits.  A date
may be followed by a time, and that by an offset from universal time; a part
that does not fit is left unread.
-/

namespace AliasConsole.Toml

/-- A number of two digits in a range. -/
def twoDigits? (least greatest : Nat) (t : Text) : Option (Nat × Text) :=
  match fixedDigits? 2 t with
  | some (n, rest) => if least ≤ n && n ≤ greatest then some (n, rest) else none
  | none => none

def markedDigits? (mark : Char) (least greatest : Nat) : Text → Option (Nat × Text)
  | [] => none
  | c :: rest => if c = mark then twoDigits? least greatest rest else none

/-- The microseconds of a fraction: six digits, cut or filled up with zeros. -/
def microseconds (fraction : Text) : Nat :=
  let digits := fraction.take 6
  ofBase 10 (digits ++ List.replicate (6 - digits.length) '0')

def fraction (t : Text) : Nat × Text :=
  match t with
  | '.' :: rest =>
    if startsWith isDigit rest then
      (microseconds (rest.takeWhile isDigit), rest.dropWhile isDigit)
    else (0, t)
  | _ => (0, t)

def time? (t : Text) : Option (TimeOfDay × Text) := do
  let (hour, t) ← twoDigits? 0 23 t
  let (minute, t) ← markedDigits? ':' 0 59 t
  let (second, t) ← markedDigits? ':' 0 59 t
  let (micros, t) := fraction t
  return (⟨hour, minute, second, micros⟩, t)

def offset (t : Text) : Option Int × Text :=
  match t with
  | [] => (none, t)
  | c :: rest =>
    if c = 'Z' || c = 'z' then (some 0, rest)
    else if c = '+' || c = '-' then
      match twoDigits? 0 23 rest with
      | none => (none, t)
      | some (hours, after) =>
        match markedDigits? ':' 0 59 after with
        | none => (none, t)
        | some (minutes, after) =>
          let size : Int := 60 * hours + minutes
          (some (if c = '-' then -size else size), after)
    else (none, t)

/-- The components of a date; the day need not exist. -/
def date? (t : Text) : Option (Date × Text) := do
  let (year, t) ← fixedDigits? 4 t
  let (month, t) ← markedDigits? '-' 1 12 t
  let (day, t) ← markedDigits? '-' 1 31 t
  return (⟨year, month, day⟩, t)

/-- The mark between a date and a time. -/
def isDateTimeMark (c : Char) : Bool := c == 'T' || c == 't' || c == ' '

/-- What follows a date: a time with its offset, or nothing. -/
def afterDate (d : Date) (t : Text) : Value × Text :=
  match t with
  | [] => (.date d, t)
  | c :: rest =>
    if isDateTimeMark c then
      match time? rest with
      | none => (.date d, t)
      | some (time, after) =>
        let (zone, after) := offset after
        (.moment d time zone, after)
    else (.date d, t)

/-- A date or a moment; a date that does not exist is refused. -/
def moment? (t : Text) : Option (Except Refusal (Value × Text)) :=
  match date? t with
  | none => none
  | some (d, rest) => some (if d.isValid then .ok (afterDate d rest) else .error .malformed)

/-- A number in a base other than ten, after its mark. -/
def based? (base : Nat) (ok : Char → Bool) (t : Text) : Option (Value × Text) :=
  (digits? ok t).map fun (digits, rest) => (.int (ofBase base digits), rest)

def fractionDigits (t : Text) : Option (Text × Text) :=
  match t with
  | '.' :: rest => digits? isDigit rest
  | _ => none

def exponent (t : Text) : Option (Int × Text) :=
  match t with
  | [] => none
  | c :: rest =>
    if c = 'e' || c = 'E' then
      let (negative, body) := Decimal.unsigned rest
      (digits? isDigit body).map fun (digits, after) =>
        (if negative then -(ofBase 10 digits : Int) else ofBase 10 digits, after)
    else none

/-- The value of whole digits with an optional fraction and exponent. -/
def decimalValue (negative : Bool) (whole rest : Text) : Except Refusal (Value × Text) :=
  let (fraction, afterFraction) := (fractionDigits rest).getD ([], rest)
  match fraction, exponent afterFraction with
  | [], none =>
    if whole.length > Decimal.maxIntegerDigits then .error (.integerTooLong whole.length)
    else
      let size : Int := ofBase 10 whole
      .ok (.int (if negative then -size else size), rest)
  | fraction, power =>
    let (power, after) := power.getD (0, afterFraction)
    let x := Decimal.nearestFloat (ofBase 10 (whole ++ fraction)) (power - fraction.length)
    .ok (.float (if negative then -x else x), after)

/-- A number in base ten with an optional sign; zero stands alone before the
point. -/
def decimal? (t : Text) : Option (Except Refusal (Value × Text)) :=
  let (negative, body) := Decimal.unsigned t
  match body with
  | '0' :: rest => some (decimalValue negative ['0'] rest)
  | _ => (digits? isDigit body).map fun (whole, rest) => decimalValue negative whole rest

/-- The words for infinity and for the undefined value. -/
def special? (t : Text) : Option (Value × Text) :=
  let (negative, body) := Decimal.unsigned t
  let sign (x : Float) : Value := .float (if negative then -x else x)
  match after? "inf".toList body, after? "nan".toList body with
  | some rest, _ => some (sign (1.0 / 0.0), rest)
  | _, some rest => some (sign (0.0 / 0.0), rest)
  | none, none => none

def plainNumber (t : Text) : Except Refusal (Value × Text) :=
  match decimal? t with
  | some scan => scan
  | none =>
    match special? t with
    | some found => .ok found
    | none => .error .malformed

/-- A number in base sixteen, two or eight behind its mark. -/
def marked? : Text → Option (Value × Text)
  | '0' :: 'x' :: rest => based? 16 isHexDigit rest
  | '0' :: 'b' :: rest => based? 2 isBinaryDigit rest
  | '0' :: 'o' :: rest => based? 8 isOctalDigit rest
  | _ => none

def number (t : Text) : Except Refusal (Value × Text) :=
  match moment? t with
  | some scan => scan
  | none =>
    match time? t with
    | some (time, rest) => .ok (.time time, rest)
    | none =>
      match marked? t with
      | some found => .ok found
      | none => plainNumber t

end AliasConsole.Toml
