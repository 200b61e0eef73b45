import RadixCalc.Fault

/-!
# Solving an equation on the rationals

What the methods for solving `f x = target` share. All of them work on the difference
`g x = f x - target`, stop at a tolerance, and give up after `maxRounds` rounds with the value
reached. Some round what they reach to a grid finer than the tolerance, as exact fractions would
grow without bound.

* `Goal`: the tolerance and the target.
* `Solution`: the value reached, with the number of rounds and the error estimated.
* `roundTo`: the nearest point of a grid.
-/

namespace RadixCalc

/-- What a solution has to meet. -/
structure Goal where
  tolerance : Rat := 1 / 100000000
  target : Rat := 0
deriving DecidableEq

/-- What a method has reached. -/
structure Solution where
  value : Rat
  rounds : Nat
  error : Rat
deriving DecidableEq

/-- The number of rounds after which a method gives up. -/
def maxRounds : Nat := 50

/-- The number of grid steps in a tolerance. -/
def stepsPerTolerance : Nat := 16

/-- The step of the grid for a tolerance. -/
def gridStep (tolerance : Rat) : Rat := tolerance / stepsPerTolerance

/-- The integer nearest to `x`, a half going away from zero. -/
def nearestInt (x : Rat) : Int :=
  if x < 0 then -(-x + 1 / 2).floor else (x + 1 / 2).floor

/-- The multiple of `step` nearest to `x`. -/
def roundTo (step x : Rat) : Rat := nearestInt (x / step) * step

/-- Whether two values lie on opposite sides of zero. -/
def opposite (u v : Rat) : Bool :=
  u < 0 && 0 < v || 0 < u && v < 0

namespace Goal

/-- A tolerance has to be positive. -/
def checkTolerance (goal : Goal) : Except Fault Unit :=
  if 0 < goal.tolerance then .ok () else .error (.badTolerance goal.tolerance)

/-- The difference between a function and the target. -/
def gap (goal : Goal) (f : Rat → Rat) (x : Rat) : Rat := f x - goal.target

/-- The gaps at the ends of a bracket have to lie on opposite sides of zero. -/
def checkBracket (goal : Goal) (atLeft atRight : Rat) : Except Fault Unit :=
  if opposite atLeft atRight then .ok ()
  else .error (.badBracket goal.target (atLeft + goal.target) (atRight + goal.target))

end Goal

end RadixCalc
