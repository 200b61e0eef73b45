import RadixCalc.Fault

/-!
# Radices

The base of a positional numeral: a rational number `radix ≥ 2`, not always an integer, for which
there are symbols enough. The digits of a number in radix `β` are the naturals below `⌈β⌉`.

* `Radix`: a radix with its bounds.
* `Radix.ofRat`: the radix of a value, if it is one.
* `Radix.numer`, `Radix.denom`: the radix as a quotient of naturals, at least two.
-/

namespace RadixCalc

/-- A base in which numbers are read and written. -/
structure Radix where
  value : Rat
  two_le : 2 ≤ value
  ceil_le : value.ceil ≤ Digit.count
deriving DecidableEq

namespace Radix

variable (β : Radix)

/-- The radix of a value, which has to lie between two and the number of symbols. -/
def ofRat (q : Rat) : Except Fault Radix :=
  if h : 2 ≤ q ∧ q.ceil ≤ Digit.count then .ok ⟨q, h.1, h.2⟩ else .error (.badRadix q)

/-- The decimal radix. -/
def ten : Radix := ⟨10, by decide, by decide⟩

/-- The number of digits of the radix, `⌈β⌉`. -/
def digitCount : Nat := β.value.ceil.toNat

/-- The radix as a natural number, when it is an integer. -/
def integer? : Option Nat :=
  if β.value.den = 1 then some β.value.num.toNat else none

/-- The numerator of the radix in lowest terms. -/
def numer : Nat := β.value.num.toNat

/-- The denominator of the radix in lowest terms. -/
def denom : Nat := β.value.den

/-- The radix in base ten. -/
def text : String := fractionText β.value

theorem denom_pos : 0 < β.denom := β.value.den_pos

theorem two_mul_denom_le : 2 * β.denom ≤ β.numer := by
  have h : (2 : Rat).num * β.value.den ≤ β.value.num * (2 : Rat).den := (Rat.le_iff _ _).1 β.two_le
  have h2 : (2 : Rat).num = 2 := rfl
  have h1 : (2 : Rat).den = 1 := rfl
  rw [h1, h2] at h
  unfold denom numer
  omega

theorem numer_pos : 0 < β.numer := by
  have := β.two_mul_denom_le
  have := β.denom_pos
  omega

end Radix

end RadixCalc
