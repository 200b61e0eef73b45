import RadixCalc.Solve.Basic

/-!
# Brent's method

A bracket is narrowed by interpolation, and by halving where interpolation promises too little. The
point `b` is the best so far, `c` is the other end of the bracket, and `a` is the point before `b`.

* `Brent.State`: the three points, the values of `g` there, and the last two steps.
* `Brent.State.interpolated`, `Brent.State.stride`, `Brent.State.next`: the parts of a round.
* `brent`: the solution between two points.
-/

namespace RadixCalc

namespace Brent

/-- What is known between two rounds. -/
structure State where
  /-- The point before `b`. -/
  a : Rat
  /-- The last point. -/
  b : Rat
  /-- The end of the bracket across from `b`. -/
  c : Rat
  /-- The value of `g` at `a`. -/
  fa : Rat
  /-- The value of `g` at `b`. -/
  fb : Rat
  /-- The value of `g` at `c`. -/
  fc : Rat
  /-- The last step. -/
  d : Rat
  /-- The step before it. -/
  e : Rat
deriving DecidableEq

namespace State

/-- The state with the better end of the bracket as its last point. -/
def ordered (s : State) : State :=
  if s.fc.abs < s.fb.abs then
    { s with a := s.b, b := s.c, c := s.b, fa := s.fb, fb := s.fc, fc := s.fb }
  else s

/-- The distance within which points count as equal. -/
def margin (s : State) (tolerance : Rat) : Rat :=
  2 * tolerance * s.b.abs + tolerance

/-- The step to the middle of the bracket. -/
def half (s : State) : Rat := (s.c - s.b) / 2

/-- Whether the bracket is narrow enough, or the last point a solution. -/
def settled (s : State) (tolerance : Rat) : Bool :=
  s.half.abs ≤ s.margin tolerance || s.fb == 0

/-- The step that interpolation proposes, as a quotient with a numerator that is not negative: along
a line through two points, or on an inverse parabola through three. -/
def interpolated (s : State) : Rat × Rat :=
  let m := s.half
  let u := s.fb / s.fa
  let (p, q) :=
    if s.a = s.c then (2 * m * u, 1 - u)
    else
      let v := s.fa / s.fc
      let w := s.fb / s.fc
      (u * (2 * m * v * (v - w) - (s.b - s.a) * (w - 1)), (v - 1) * (w - 1) * (u - 1))
  if 0 < p then (p, -q) else (-p, q)

/-- Whether the step `p / q` stays well within the bracket and is less than half the step before
the last. -/
def accepts (s : State) (tolerance p q : Rat) : Bool :=
  2 * p < 3 * s.half * q - (s.margin tolerance * q).abs && p < (s.e * q / 2).abs

/-- The step to take, and the one to keep as the step before it: an interpolated step if the last
two points promise one and it is accepted, and otherwise half the bracket. -/
def stride (s : State) (tolerance : Rat) : Rat × Rat :=
  if s.e.abs < s.margin tolerance || s.fa.abs ≤ s.fb.abs then (s.half, s.half)
  else
    let (p, q) := s.interpolated
    if s.accepts tolerance p q then (p / q, s.d) else (s.half, s.half)

/-- The next point: a step from `b` no shorter than the margin, rounded to the grid. -/
def next (s : State) (tolerance : Rat) : Rat :=
  let d := (s.stride tolerance).1
  let margin := s.margin tolerance
  let step := if margin < d.abs then d else if 0 < s.half then margin else -margin
  roundTo (gridStep tolerance) (s.b + step)

/-- The state behind a round that ends at the point `b`, where `g` is `fb`. If `g` has the same sign
there as at the end across, the point before becomes that end. -/
def moved (s : State) (tolerance b fb : Rat) : State :=
  let (d, e) := s.stride tolerance
  if (0 < fb) = (0 < s.fc) then ⟨s.b, b, s.b, s.fb, fb, s.fb, b - s.b, b - s.b⟩
  else ⟨s.b, b, s.c, s.fb, fb, s.fc, d, e⟩

end State

/-- Rounds from a state, `rest` more after the first at most. When none is left the next point is
the solution, though `g` has not been computed there. -/
def rounds (g : Rat → Rat) (tolerance : Rat) : (rest : Nat) → State → Solution
  | 0, s =>
    let s := s.ordered
    ⟨if s.settled tolerance then s.b else s.next tolerance, maxRounds, s.half.abs⟩
  | rest + 1, s =>
    let s := s.ordered
    if s.settled tolerance then ⟨s.b, maxRounds - (rest + 1), s.half.abs⟩
    else
      let b := s.next tolerance
      rounds g tolerance rest (s.moved tolerance b (g b))

end Brent

/-- A solution of `f x = target` between two points where `f` lies on opposite sides of the target,
with half the last bracket as the error. -/
def brent (f : Rat → Rat) (a b : Rat) (goal : Goal) : Except Fault Solution := do
  goal.checkTolerance
  let g := goal.gap f
  goal.checkBracket (g a) (g b)
  return Brent.rounds g goal.tolerance (maxRounds - 1) ⟨a, b, a, g a, g b, g a, b - a, b - a⟩

end RadixCalc
