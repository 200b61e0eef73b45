import RadixCalc.Numeral.Natural

/-!
# Where the search for a root starts

The root of a number is estimated in floating point when the number lies in its range, and taken
from the number of binary digits otherwise.

* `Double.nearest?`: the floating-point number nearest to a rational.
* `NthRoot.estimate?`: the root in floating point.
* `NthRoot.powerOfTwo`: a power of two above the root.
* `NthRoot.start`: one or the other.
-/

namespace RadixCalc

/-- The integer nearest to `x`, a half going to the even neighbour. -/
def nearestEven (x : Rat) : Int :=
  let n : Int := x.floor
  let rest : Rat := x - n
  if rest < 1 / 2 then n
  else if 1 / 2 < rest then n + 1
  else if n % 2 = 0 then n
  else n + 1

/-- The difference in binary digits between numerator and denominator. -/
def bitDifference (x : Rat) : Int :=
  (bitLength x.num.natAbs : Int) - bitLength x.den

/-- The exponent of the largest power of two not above a positive number. -/
def binaryExponent (x : Rat) : Int :=
  if x < 2 ^ bitDifference x then bitDifference x - 1 else bitDifference x

namespace Double

/-- The exponent of the least positive floating-point number. -/
def minExponent : Int := -1074

/-- The exponent of the least power of two past the range of floating point. -/
def maxExponent : Int := 1024

/-- The leading bit of a number, which is not stored: `2 ^ 52`. -/
def hiddenBit : Nat := 4503599627370496

/-- The floating-point number nearest to a positive rational, as `m * 2 ^ e` with `m` of at most 53
binary digits, unless it is zero or past the range. -/
def nearest? (x : Rat) : Option (Nat × Int) :=
  let e := max (binaryExponent x - 52) minExponent
  let m := (nearestEven (x / 2 ^ e)).toNat
  if m = 0 || (2 : Rat) ^ maxExponent ≤ m * 2 ^ e then none else some (m, e)

/-- The value of a positive floating-point number, if it is finite: eleven bits of exponent and
fifty-two of fraction. -/
def toRat? (x : Float) : Option Rat :=
  let bits : Nat := x.toBits.toNat
  let exponent := bits / hiddenBit
  let fraction := bits % hiddenBit
  if bits = 0 || 2047 ≤ exponent then none
  else if exponent = 0 then some ((fraction : Rat) * 2 ^ minExponent)
  else some (((hiddenBit + fraction : Nat) : Rat) * 2 ^ (exponent + minExponent - 1))

end Double

namespace NthRoot

/-- The root of order `n` of a positive number, computed in floating point. -/
def estimate? (x : Rat) (n : Nat) : Option Rat := do
  let (m, e) ← Double.nearest? x
  let value := m.toUInt64.toFloat.scaleB e
  Double.toRat? (value.pow (1 / n.toUInt64.toFloat))

/-- The exponent of a power of two above the root of order `n` of a positive number: the number is
below `2 ^ k` for the `k` of one bit more than the difference, and the exponent is `k / n` rounded
up. -/
def startExponent (x : Rat) (n : Nat) : Int :=
  let k := bitDifference x + 1
  k / n + if k % n = 0 then 0 else 1

/-- The largest exponent of a power of two that the search starts from, `2 ^ 31 - 1`. -/
def maxStartExponent : Nat := 2147483647

/-- A power of two above the root of order `n` of a positive number, or two itself if the exponent
is past the largest one. -/
def powerOfTwo (x : Rat) (n : Nat) : Rat :=
  let e := startExponent x n
  if e < -maxStartExponent - 1 || maxStartExponent < e then 2 else 2 ^ e

/-- Where the search for the root of order `n` of a positive number starts. -/
def start (x : Rat) (n : Nat) : Rat :=
  (estimate? x n).getD (powerOfTwo x n)

end NthRoot

end RadixCalc
