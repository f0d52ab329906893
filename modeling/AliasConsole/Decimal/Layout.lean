import AliasConsole.Decimal.Shortest

/-!
# Written floating point numbers

A layout says which digits of a number are written, where notation is
positional, and what stands behind a whole number.  The exact layout reads back.
The others have a precision: the general one counts digits, the fixed one and
the scientific one count places behind the point.
-/

namespace AliasConsole.Decimal

/-- How a floating point number is laid out. -/
structure Layout where
  /-- The digits that are written. -/
  digits : Binary → Digits
  /-- Notation is positional when the first digit has this power of ten. -/
  isPositional : Int → Bool
  /-- What stands behind a whole number in positional notation. -/
  wholeEnd : Text
  /-- What stands between a single digit and an exponent. -/
  singleEnd : Text

/-- Notation of the natural layouts is positional from `10 ^ -4` to below
`10 ^ count`. -/
def isModerate (count : Nat) (e : Int) : Bool := -4 ≤ e && e < count

/-- The shortest digits that read back, positional below `10 ^ 16`, never
without a point. -/
def Layout.exact : Layout := ⟨shortest, isModerate 16, ".0".toList, []⟩

/-- No number has more significant digits than this. -/
def maxDigits : Nat := 767

/-- At most `count` digits, positional below `10 ^ count`, no point behind a
whole number. -/
def Layout.general (count : Nat) : Layout :=
  ⟨rounded (min count maxDigits), isModerate count, [], []⟩

/-- No number has more places behind the point than this. -/
def maxPlaces : Nat := 1074

/-- Positional, with `places` places behind the point. -/
def Layout.fixed (places : Nat) : Layout :=
  ⟨fun b =>
    let d := toPlaces (min places maxPlaces) b
    d.filled (d.digits.length + (places - maxPlaces)), fun _ => true, [], []⟩

/-- One digit, `places` places behind the point, and an exponent. -/
def Layout.scientific (places : Nat) : Layout :=
  ⟨fun b => (rounded (min (places + 1) maxDigits) b).filled (places + 1), fun _ => false, [], []⟩

/-- The layout with at least `count` digits, and a point in every number. -/
def Layout.pointed (count : Nat) (layout : Layout) : Layout :=
  { layout with
    digits := fun b => (layout.digits b).filled count
    wholeEnd := ['.']
    singleEnd := ['.'] }

def digitText (digits : List Nat) : Text := digits.flatMap Text.ofNat

def exponentText (e : Int) : Text :=
  'e' :: (if e < 0 then '-' else '+') :: Text.ofNatPadded 2 e.natAbs

def positionalText (wholeEnd : Text) (d : Digits) : Text :=
  if d.exponent < 0 then
    '0' :: '.' :: (List.replicate (d.exponent.natAbs - 1) '0' ++ digitText d.digits)
  else
    let wholeCount := d.exponent.natAbs + 1
    let whole := d.digits.take wholeCount
    let fraction := d.digits.drop wholeCount
    digitText whole ++ List.replicate (wholeCount - whole.length) '0' ++
      (if fraction.isEmpty then wholeEnd else '.' :: digitText fraction)

def scientificText (singleEnd : Text) (d : Digits) : Text :=
  digitText (d.digits.take 1) ++
    (if d.digits.length ≤ 1 then singleEnd else '.' :: digitText (d.digits.drop 1)) ++
    exponentText d.exponent

def Layout.finite (layout : Layout) (b : Binary) : Text :=
  let d := layout.digits b
  if layout.isPositional d.exponent then positionalText layout.wholeEnd d
  else scientificText layout.singleEnd d

def sizeBits (x : Float) : Nat := x.toBits.toNat % signBit

/-- A minus stands before the number; an undefined number has none. -/
def hasMinus (x : Float) : Bool := x.toBits.toNat ≥ signBit && sizeBits x ≤ infiniteSize

def Layout.unsigned (layout : Layout) (x : Float) : Text :=
  if sizeBits x > infiniteSize then "nan".toList
  else if sizeBits x = infiniteSize then "inf".toList
  else layout.finite (.ofBits (sizeBits x))

def Layout.text (layout : Layout) (x : Float) : Text :=
  (if hasMinus x then ['-'] else []) ++ layout.unsigned x

/-- The floating point number nearest to an integer. -/
def nearestFloatOfInt (n : Int) : Float :=
  if n < 0 then -(Float.ofScientific n.natAbs false 0) else Float.ofScientific n.natAbs false 0

/-- The integer part of a finite number, toward zero. -/
def truncated (x : Float) : Int :=
  let b := Binary.ofBits (sizeBits x)
  let size := b.value.num / b.value.den
  if hasMinus x then -(size : Int) else size

end AliasConsole.Decimal
