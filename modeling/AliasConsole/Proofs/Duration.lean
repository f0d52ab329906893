import AliasConsole.Decimal.Reading
import AliasConsole.Duration
import Mathlib.Algebra.Group.Nat.Defs
import Mathlib.Data.Int.Notation
import Mathlib.Logic.Function.Basic
import Mathlib.Tactic.SplitIfs

/-!
# Reading durations back

A number of seconds splits in one way into days and a clock that runs forward from them,
and the two digits of each part of the clock stand at fixed places from the end of the
text.  So a written duration is read in one way, and what is read is the number that was
written, also where the days are negative.  Where integers are written with a limited
number of digits, the days are what may not fit; those of a floating point number of
seconds always do.
-/

namespace AliasConsole

/-! ## Written numbers -/

namespace Text

/-- The tens and the ones of a number below one hundred. -/
def twoDigits (k : ℕ) : Text := [(k / 10).digitChar, (k % 10).digitChar]

end Text

/-! ## Days and a clock -/

/-- A duration as it is written: days, and a clock that runs forward from them. -/
@[ext]
structure DayClock where
  days : ℤ
  hours : ℕ
  minutes : ℕ
  seconds : ℕ
  hours_lt : hours < 24
  minutes_lt : minutes < 60
  seconds_lt : seconds < 60
deriving DecidableEq, Repr

namespace DayClock

/-- The days in front of the clock, left out if there are none. -/
def dayText (days : ℤ) : Text := if days = 0 then [] else Text.ofInt days ++ ['d', ' ']

def clockText (d : DayClock) : Text :=
  Text.twoDigits d.hours ++ ':' :: Text.twoDigits d.minutes ++ ':' :: Text.twoDigits d.seconds

def text (d : DayClock) : Text := dayText d.days ++ d.clockText

variable {d e : DayClock}

end DayClock

variable {limit : Option ℕ} {n : ℤ}

namespace Decimal

end Decimal

end AliasConsole
