import RadixCalc.Solve.Basic

/-!
# Newton's method

From a start, each round goes to where the tangent meets the target, rounded to the grid, until the
last step is no longer than the tolerance.

* `Newton.tangent`: one round.
* `newton`: the solution from a start.
-/

namespace RadixCalc

namespace Newton

/-- Where the tangent at `x` of a function of value `gx` and slope `slope` is zero, rounded to the
grid. -/
def tangent (tolerance x gx slope : Rat) : Rat :=
  roundTo (gridStep tolerance) (x - gx / slope)

/-- Rounds from `x`, reached by a step of length `error` after `done` rounds, `rest` more at most. A
slope of zero is a fault. -/
def rounds (g slope : Rat → Rat) (tolerance x error : Rat) (done : Nat) :
    (rest : Nat) → Except Fault Solution
  | 0 => .ok ⟨x, done, error⟩
  | rest + 1 =>
    if error ≤ tolerance then .ok ⟨x, done, error⟩
    else if slope x = 0 then .error .divisionByZero
    else
      let y := tangent tolerance x (g x) (slope x)
      rounds g slope tolerance y (y - x).abs (done + 1) rest

end Newton

/-- A solution of `f x = target` from a start, given the slope of `f`, with the length of the last
step as the error. -/
def newton (f slope : Rat → Rat) (start : Rat) (goal : Goal) : Except Fault Solution := do
  goal.checkTolerance
  Newton.rounds (goal.gap f) slope goal.tolerance start (goal.tolerance * 2) 0 maxRounds

end RadixCalc
