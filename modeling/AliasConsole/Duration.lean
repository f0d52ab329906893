import AliasConsole.Decimal.Layout
import AliasConsole.Fault

/-!
# Durations

A duration is a number of seconds, whole or fractional.  It is written as a
clock after its integer part, toward zero, with whole days in front when there
are any; a negative duration is a negative number of days and a clock that runs
forward from there.  Days of more digits than an integer is written with have no
text.
-/

namespace AliasConsole

inductive Seconds where
  | whole (n : Int)
  | fractional (x : Float)

namespace Seconds

def toFloat : Seconds → Float
  | whole n => Decimal.nearestFloatOfInt n
  | fractional x => x

def since (start now : Seconds) : Seconds :=
  match now, start with
  | whole n, whole m => whole (n - m)
  | _, _ => fractional (now.toFloat - start.toFloat)

/-- The integer part, toward zero; infinite and undefined numbers have none. -/
def truncated : Seconds → Except Fault Int
  | whole n => .ok n
  | fractional x =>
    if x.isNaN then
      .error (.saying .invalidValue "cannot convert float NaN to integer".toList)
    else if x.isInf then
      .error (.saying .overflow "cannot convert float infinity to integer".toList)
    else .ok (Decimal.truncated x)

end Seconds

def clockDigits (n : Int) : Text := Text.ofNatPadded 2 n.natAbs

/-- The digits of an integer, unless they are more than the limit, if there is one. -/
def limitedText (limit : Option Nat) (n : Int) : Except Fault Text :=
  match limit with
  | none => .ok (Text.ofInt n)
  | some most =>
    if most < (Text.ofNat n.natAbs).length then .error (.integerTooLong most)
    else .ok (Text.ofInt n)

/-- A whole number of seconds as a clock after the days, where integers are written
with at most `limit` digits. -/
def durationText (limit : Option Nat) (seconds : Int) : Except Fault Text :=
  let minutes := seconds.fdiv 60
  let hours := minutes.fdiv 60
  let days := hours.fdiv 24
  let clock := clockDigits (hours.fmod 24) ++ ':' :: clockDigits (minutes.fmod 60) ++
    ':' :: clockDigits (seconds.fmod 60)
  if days = 0 then .ok clock
  else (limitedText limit days).map fun words => words ++ 'd' :: ' ' :: clock

end AliasConsole
