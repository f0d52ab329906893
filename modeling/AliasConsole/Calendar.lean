import AliasConsole.Text.Basic

/-!
# Calendar values

Dates, times of day and offsets from universal time, and their two written
forms: the international one, and the constructor form that shows every
component.
-/

namespace AliasConsole

structure Date where
  year : Nat
  month : Nat
  day : Nat
deriving DecidableEq, Repr

structure TimeOfDay where
  hour : Nat
  minute : Nat
  second : Nat
  microsecond : Nat
deriving DecidableEq, Repr

/-- A year is a leap year when four divides it, unless a hundred does and four
hundred does not. -/
def isLeapYear (year : Nat) : Bool :=
  year % 4 == 0 && (year % 100 != 0 || year % 400 == 0)

def daysInMonth (year month : Nat) : Nat :=
  if month = 2 then (if isLeapYear year then 29 else 28)
  else if month = 4 || month = 6 || month = 9 || month = 11 then 30
  else 31

def Date.isValid (d : Date) : Bool :=
  1 ≤ d.year && d.year ≤ 9999 && 1 ≤ d.month && d.month ≤ 12 && 1 ≤ d.day &&
    d.day ≤ daysInMonth d.year d.month

def TimeOfDay.isValid (t : TimeOfDay) : Bool :=
  t.hour < 24 && t.minute < 60 && t.second < 60

/-- Year, month and day joined by hyphens. -/
def Date.text (d : Date) : Text :=
  Text.ofNatPadded 4 d.year ++ '-' :: Text.ofNatPadded 2 d.month ++ '-' ::
    Text.ofNatPadded 2 d.day

/-- Hours, minutes and seconds joined by colons. -/
def TimeOfDay.clock (t : TimeOfDay) : Text :=
  Text.ofNatPadded 2 t.hour ++ ':' :: Text.ofNatPadded 2 t.minute ++ ':' ::
    Text.ofNatPadded 2 t.second

/-- The clock with six digits of a second unless they are all zero. -/
def TimeOfDay.text (t : TimeOfDay) : Text :=
  t.clock ++ if t.microsecond = 0 then [] else '.' :: Text.ofNatPadded 6 t.microsecond

/-- An offset from universal time in minutes, with its sign. -/
def offsetText (minutes : Int) : Text :=
  (if minutes < 0 then '-' else '+') ::
    (Text.ofNatPadded 2 (minutes.natAbs / 60) ++ ':' ::
      Text.ofNatPadded 2 (minutes.natAbs % 60))

/-- A constructor with its arguments. -/
def constructorText (name : Text) (arguments : List Text) : Text :=
  name ++ '(' :: Text.joined ", ".toList arguments ++ [')']

def Date.components (d : Date) : List Text :=
  [Text.ofNat d.year, Text.ofNat d.month, Text.ofNat d.day]

/-- Hour and minute, then the second unless it and all after it are zero, then
the microsecond unless it is zero. -/
def TimeOfDay.components (t : TimeOfDay) : List Text :=
  [Text.ofNat t.hour, Text.ofNat t.minute] ++
    if t.microsecond ≠ 0 then [Text.ofNat t.second, Text.ofNat t.microsecond]
    else if t.second ≠ 0 then [Text.ofNat t.second] else []

/-- The constructor form of an offset; a negative one counts seconds from the
day before. -/
def offsetConstructor (minutes : Int) : Text :=
  if minutes = 0 then "datetime.timezone.utc".toList
  else
    let seconds := Text.ofInt (if minutes < 0 then 86400 + 60 * minutes else 60 * minutes)
    "datetime.timezone(datetime.timedelta(".toList ++
      (if minutes < 0 then "days=-1, ".toList else []) ++ "seconds=".toList ++ seconds ++
      "))".toList

end AliasConsole
