import RadixCalc.Numeral.Natural

/-!
# The constants

The numbers `e` and `π` to a given number of decimal places, from sums of whole numbers: each term
of a series is cut off at ten places more than are asked for, and so is the sum in the end.

* `eulerTail`: the series of inverse factorials.
* `arctanSum`: the series of the arctangent of an inverse.
* `euler`, `archimedes`: the two constants.
-/

namespace RadixCalc.Constant

/-- The decimal places computed beyond those that are asked for. -/
def guardPlaces : Nat := 10

/-- The decimal places of the constants bound by default. -/
def defaultPlaces : Nat := 60

/-- Ten to the power `places`: the whole, in units of the last of so many decimals. -/
def powerOfTen (places : Nat) : Nat := Nat.pow 10 places

/-- The terms `t`, `t / (k + 2)`, `t / ((k + 2) (k + 3))`, ... up to the first that is cut off to
zero, summed. -/
def eulerTail (k t : Nat) : Nat :=
  if _h : t = 0 then 0 else t + eulerTail (k + 1) (t / (k + 2))
termination_by t
decreasing_by exact Nat.div_lt_self (by omega) (by omega)

/-- The number `e`, cut off after `places` decimals. The first two terms of its series are both
one. -/
def euler (places : Nat) : Rat :=
  let scale := powerOfTen (places + guardPlaces)
  mkRat ((scale + eulerTail 0 scale) / powerOfTen guardPlaces : Nat) (powerOfTen places)

/-- The alternating sum of `s / (2 k + 1)`, `s / (q q) / (2 k + 3)`, ... up to the first term that
is cut off to zero. -/
def arctanSum (q : Nat) (hq : 1 < q) (k s : Nat) : Int :=
  if _h : s / (2 * k + 1) = 0 then 0
  else (s / (2 * k + 1) : Nat) - arctanSum q hq (k + 1) (s / (q * q))
termination_by s
decreasing_by
  refine Nat.div_lt_self ?_ (Nat.lt_of_lt_of_le hq (Nat.le_mul_of_pos_left q (by omega)))
  exact Nat.pos_of_ne_zero fun hs => _h (by simp [hs])

/-- The arctangent of `1 / q` in units of `1 / scale`, each term cut off. -/
def arctanInverse (q : Nat) (hq : 1 < q) (scale : Nat) : Int :=
  arctanSum q hq 0 (scale / q)

/-- The number `π`, cut off after `places` decimals, as sixteen times the arctangent of `1 / 5` less
four times that of `1 / 239`. -/
def archimedes (places : Nat) : Rat :=
  let scale := powerOfTen (places + guardPlaces)
  let sum := 16 * arctanInverse 5 (by decide) scale - 4 * arctanInverse 239 (by decide) scale
  mkRat (sum / powerOfTen guardPlaces) (powerOfTen places)

end RadixCalc.Constant
