import RadixCalc.Solve.Basic

/-!
# Bisection

A bracket at whose ends `g` has opposite signs is halved until it is no wider than the tolerance,
always keeping a half with a change of sign. Only the left end and the width are kept.

* `Bisection.halve`: the halving.
* `bisect`: the solution between two points, which may come in either order.
-/

namespace RadixCalc

namespace Bisection

/-- Halves the bracket from `left` of width `width`, where `g` is `atLeft` at the left end, in
`rest` more rounds at most, after `done`. A middle where `g` vanishes is the solution. -/
def halve (g : Rat → Rat) (tolerance left width atLeft : Rat) (done : Nat) :
    (rest : Nat) → Solution
  | 0 => ⟨left, done, width⟩
  | rest + 1 =>
    if width ≤ tolerance then ⟨left, done, width⟩
    else
      let width := width / 2
      let middle := left + width
      let atMiddle := g middle
      if atMiddle = 0 then ⟨middle, done + 1, 0⟩
      else if (atLeft < 0) = (atMiddle < 0) then
        halve g tolerance middle width atMiddle (done + 1) rest
      else halve g tolerance left width atLeft (done + 1) rest

end Bisection

/-- A solution of `f x = target` between two points where `f` lies on opposite sides of the target:
the left end of the last bracket, with its width as the error. -/
def bisect (f : Rat → Rat) (a b : Rat) (goal : Goal) : Except Fault Solution := do
  goal.checkTolerance
  let g := goal.gap f
  let left := if a ≤ b then a else b
  let right := if a ≤ b then b else a
  goal.checkBracket (g left) (g right)
  return Bisection.halve g goal.tolerance left (right - left) (g left) 0 maxRounds

end RadixCalc
