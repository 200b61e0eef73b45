import RadixCalc.NthRoot.Estimate
import RadixCalc.Solve.Basic

/-!
# Roots of any order

The root of order `n` of a rational, by Newton's method on `y ^ n = x`, rounded in each round to a
grid finer than the tolerance.

* `NthRoot.descend`: the rounds, from any start.
* `NthRoot.ofPositive`: the root of a positive number, of an order within the limits.
* `nthRoot`: the root of any number that has one.
-/

namespace RadixCalc

namespace NthRoot

/-- How the rounds come to an end. -/
inductive Exit where
  /-- A point so small that its power is zero. -/
  | vanished
  /-- A step no longer than the tolerance. -/
  | settled
  /-- No round left. -/
  | capped
deriving DecidableEq, Repr

/-- The point after `y` on the way to the root of order `n` of `x`. -/
def improve (x : Rat) (n : Nat) (ε y : Rat) : Rat :=
  let power := y ^ (n - 1)
  roundTo (gridStep ε) (y - (power * y - x) / (n * power))

/-- The point reached from `y` in a number of rounds at most, and why no further. -/
def descend (x : Rat) (n : Nat) (ε : Rat) : (rounds : Nat) → (y : Rat) → Rat × Exit
  | 0, y => (y, .capped)
  | rounds + 1, y =>
    if y ^ (n - 1) = 0 then (y, .vanished)
    else
      let z := improve x n ε y
      if (z - y).abs ≤ ε then (z, .settled) else descend x n ε rounds z

/-- The largest order in absolute value, `2 ^ 63 - 1`. -/
def maxOrder : Nat := 9223372036854775807

/-- The largest order of a root that is searched for, `2 ^ 31 - 1`. -/
def maxSearchOrder : Nat := 2147483647

/-- The largest size, in bits, of the powers of grid points met on the way. -/
def maxPowerBits : Nat := 4000000

/-- The size of a power of order `n` of a grid point, in bits. -/
def powerBits (n : Nat) (ε : Rat) : Nat :=
  n * (bitLength (gridStep ε).num.natAbs + bitLength (gridStep ε).den)

/-- The root of order `n ≥ 2` of a positive number. -/
def ofPositive (x : Rat) (n : Nat) (ε : Rat) : Except Fault Rat :=
  if maxSearchOrder < n || maxPowerBits < powerBits n ε then
    .error (.badRoot (.orderTooLarge n))
  else .ok (descend x n ε maxRounds (start x n)).1

/-- The root of order `n ≥ 1`, which a negative number has for odd `n` only. -/
def ofOrder (x : Rat) (n : Nat) (ε : Rat) : Except Fault Rat :=
  if x = 0 || n = 1 then .ok x
  else if x < 0 then
    if n % 2 = 0 then .error (.badRoot (.evenOrderOfNegative n x))
    else do return -(← ofPositive (-x) n ε)
  else ofPositive x n ε

end NthRoot

/-- The root of `x` of an order, to a tolerance. A root of negative order is the inverse of the root
of the opposite order. -/
def nthRoot (x : Rat) (order : Int) (ε : Rat) : Except Fault Rat :=
  if ε ≤ 0 then .error (.badTolerance ε)
  else if order = 0 then .error (.badRoot .zeroOrder)
  else if order < 0 then
    if order < -NthRoot.maxOrder then .error (.badRoot (.orderTooLarge order))
    else do
      let root ← NthRoot.ofOrder x order.natAbs ε
      if root = 0 then .error .divisionByZero else return root⁻¹
  else NthRoot.ofOrder x order.natAbs ε

end RadixCalc
