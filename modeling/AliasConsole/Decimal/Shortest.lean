import AliasConsole.Text.Basic

/-!
# Decimal digits of a floating point number

A floating point number without its sign is `m · 2 ^ q`.  The reals that round
to a positive one form an interval around it, which contains its ends exactly
when `m` is even.  The shortest digits are those of the coarsest decimal grid
that has a point in the interval, and of two such points the nearer one.  Digits
to a fixed count, or to a fixed number of places behind the point, are the
nearest point of one grid, a tie going to the even digit.
-/

namespace AliasConsole.Decimal

/-- The digits of a number, whose first digit has the weight `10 ^ exponent`. -/
structure Digits where
  digits : List Nat
  exponent : Int
deriving DecidableEq, Repr

/-- A positive rational as a numerator over a denominator. -/
structure Ratio where
  num : Nat
  den : Nat

def Ratio.ofBinary (n : Nat) (q : Int) : Ratio :=
  if q < 0 then ⟨n, Nat.pow 2 q.natAbs⟩ else ⟨n * Nat.pow 2 q.natAbs, 1⟩

def Ratio.scale (r : Ratio) (k : Int) : Ratio :=
  if k < 0 then ⟨r.num, r.den * Nat.pow 10 k.natAbs⟩
  else ⟨r.num * Nat.pow 10 k.natAbs, r.den⟩

def digitCount (n : Nat) : Nat := (Nat.toDigits 10 n).length

/-- The greatest `e` with `10 ^ e ≤ r`. -/
def Ratio.exponent (r : Ratio) : Int :=
  if r.den ≤ r.num then (digitCount (r.num / r.den) : Int) - 1
  else -(digitCount ((r.den + r.num - 1) / r.num - 1) : Int)

/-- The natural number nearest to a rational, a tie going to the even one. -/
def Ratio.nearest (r : Ratio) : Nat :=
  let down : Nat := r.num / r.den
  let rest : Nat := r.num % r.den
  if 2 * rest < r.den || (2 * rest == r.den && down % 2 == 0) then down else down + 1

def digitsOf (n : Nat) : List Nat := (Nat.toDigits 10 n).map fun c => c.toNat - 48

/-- The decimal digits of a positive grid point, without zeros at the end. -/
def trimmedDigits (n : Nat) : List Nat :=
  ((digitsOf n).reverse.dropWhile (· == 0)).reverse

def Digits.zero : Digits := ⟨[0], 0⟩

/-- Digits with zeros behind them up to a count. -/
def Digits.filled (count : Nat) (d : Digits) : Digits :=
  { d with digits := d.digits ++ List.replicate (count - d.digits.length) 0 }

/-- The grid point `n · 10 ^ k` as digits. -/
def Digits.ofGrid (n : Nat) (k : Int) : Digits :=
  ⟨trimmedDigits n, k + digitCount n - 1⟩

/-- A finite floating point number without its sign: `mantissa · 2 ^ power`; the numbers
below it lie closer together when `thin` holds. -/
structure Binary where
  mantissa : Nat
  power : Int
  thin : Bool

/-- The bit of the sign, counted as a number; the bits below it are the size. -/
def signBit : Nat := 0x8000000000000000

/-- The lowest bit of the exponent, counted as a number; the bits below it are
the fraction. -/
def exponentUnit : Nat := 0x10000000000000

/-- The size of an infinite number; those of undefined numbers are greater. -/
def infiniteSize : Nat := 0x7FF0000000000000

/-- Splits the size of a finite number. -/
def Binary.ofBits (bits : Nat) : Binary :=
  let fraction : Nat := bits % exponentUnit
  let exponent : Nat := bits / exponentUnit
  if exponent = 0 then ⟨fraction, -1074, false⟩
  else ⟨exponentUnit + fraction, (exponent : Int) - 1075, fraction = 0 && exponent > 1⟩

def Binary.value (b : Binary) : Ratio := .ofBinary b.mantissa b.power

/-- The lower end of the interval that rounds to the number. -/
def Binary.low (b : Binary) : Ratio :=
  .ofBinary (4 * b.mantissa - if b.thin then 1 else 2) (b.power - 2)

/-- The upper end of the interval that rounds to the number. -/
def Binary.high (b : Binary) : Ratio := .ofBinary (4 * b.mantissa + 2) (b.power - 2)

/-- A grid point times `10 ^ k` rounds to the number. -/
def Binary.accepts (b : Binary) (n : Nat) (k : Int) : Bool :=
  let low := b.low.scale (-k)
  let high := b.high.scale (-k)
  if b.mantissa % 2 = 0 then low.num ≤ n * low.den && n * high.den ≤ high.num
  else low.num < n * low.den && n * high.den < high.num

/-- The shortest digits among the grids of `count` to `count + fuel` digits. -/
def shortestFrom (b : Binary) (e : Int) : Nat → Nat → Digits
  | 0, count =>
    .ofGrid (let r := b.value.scale ((count : Int) - 1 - e); r.num / r.den) (e - count + 1)
  | fuel + 1, count =>
    let k : Int := e - count + 1
    let r := b.value.scale (-k)
    let down : Nat := r.num / r.den
    let up : Nat := down + 1
    match b.accepts down k && 0 < down, b.accepts up k with
    | true, true => .ofGrid r.nearest k
    | true, false => .ofGrid down k
    | false, true => .ofGrid up k
    | false, false => shortestFrom b e fuel (count + 1)

/-- The shortest digits that read back as the number. -/
def shortest (b : Binary) : Digits :=
  if b.mantissa = 0 then .zero else shortestFrom b b.value.exponent 17 1

/-- The number rounded to `count` digits, without zeros at the end. -/
def rounded (count : Nat) (b : Binary) : Digits :=
  if b.mantissa = 0 then .zero
  else
    let k : Int := b.value.exponent - count + 1
    .ofGrid (b.value.scale (-k)).nearest k

/-- The number rounded to `places` places behind the point, from the first
digit before the point to the last place. -/
def toPlaces (places : Nat) (b : Binary) : Digits :=
  let digits := digitsOf (b.value.scale places).nearest
  let digits := List.replicate (places + 1 - digits.length) 0 ++ digits
  ⟨digits, (digits.length : Int) - 1 - places⟩

end AliasConsole.Decimal
