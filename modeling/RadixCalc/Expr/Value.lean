import RadixCalc.Expr
import RadixCalc.NthRoot
import RadixCalc.Numeral.Reader

/-!
# The value of an expression

An expression has an exact rational value, roots apart, which are taken to a tolerance. A quotient
by zero and a word with an unknown digit count as zero and are recorded as incidents; any other
fault stops the evaluation.

* `power`: a power with a rational exponent.
* `Operator.apply`: the value of a binary operator.
* `Expr.eval`: the value of an expression with the incidents met, in the order of evaluation.
-/

namespace RadixCalc

/-- A value with the incidents met on the way to it. -/
abbrev Valued := Rat × List Fault

/-- What an expression is read against. -/
structure Context where
  /-- The radix of its numerals. -/
  radix : Radix
  /-- The values of its names. -/
  scope : Scope
  /-- The tolerance of its roots. -/
  tolerance : Rat

/-- The largest numerator of an exponent, `2 ^ 31 - 1`. -/
def maxExponent : Nat := 2147483647

/-- Whether a number of bits times the absolute value of an exponent is past what a power may have.
A number of one bit, which is one in absolute value or its inverse, has no large powers. -/
def powerTooLong (x : Rat) (n : Int) : Bool :=
  1 < ratBits x && maxBits < ratBits x * n.natAbs

/-- The power of zero: one for exponent zero, and a quotient by zero for a negative exponent. -/
def powerOfZero (exponent : Rat) : Valued :=
  if exponent < 0 then (0, [.divisionByZero])
  else if exponent = 0 then (1, [])
  else (0, [])

/-- The power of `x` with exponent `n / d` in lowest terms: the root of order `d` of `x ^ n`. -/
def power (tolerance x exponent : Rat) : Except Fault Valued :=
  let n := exponent.num
  let d := exponent.den
  let tooLarge := Fault.exponentTooLarge (fractionText exponent)
  if x = 0 then .ok (powerOfZero exponent)
  else if n < -maxExponent - 1 || maxExponent < n || powerTooLong x n then .error tooLarge
  else if d = 1 then .ok (x ^ n, [])
  else if NthRoot.maxOrder < d then .error tooLarge
  else do return (← nthRoot (x ^ n) d tolerance, [])

/-- The root of `x` of order `n`, cut off to an integer. -/
def rootOf (tolerance x n : Rat) : Except Fault Rat :=
  let order := n.num.tdiv n.den
  if order < -NthRoot.maxOrder - 1 || NthRoot.maxOrder < order then
    .error (.badRoot (.orderTooLarge n))
  else nthRoot x order tolerance

/-- The value of a binary operator. -/
def Operator.apply (tolerance : Rat) (o : Operator) (x y : Rat) : Except Fault Valued :=
  match o with
  | add => .ok (x + y, [])
  | sub => .ok (x - y, [])
  | mul => .ok (x * y, [])
  | div => .ok (if y = 0 then (0, [.divisionByZero]) else (x / y, []))
  | pow => power tolerance x y

/-- The value of a word, which is zero when a digit is unknown. -/
def Context.valueOf (cx : Context) (text : String) : Except Fault Valued :=
  match Numeral.read text cx.radix cx.scope with
  | .ok x => .ok (x, [])
  | .error f => if f.isRecoverable then .ok (0, [f]) else .error f

/-- The value of an expression, with the incidents met. -/
def Expr.eval (cx : Context) : Expr → Except Fault Valued
  | word text => cx.valueOf text
  | neg e => do
    let (x, i) ← e.eval cx
    return (-x, i)
  | binary o e f => do
    let (x, i) ← e.eval cx
    let (y, j) ← f.eval cx
    let (z, k) ← o.apply cx.tolerance x y
    return (z, i ++ j ++ k)
  | sqrt e => do
    let (x, i) ← e.eval cx
    return (← nthRoot x 2 cx.tolerance, i)
  | root e f => do
    let (x, i) ← e.eval cx
    let (n, j) ← f.eval cx
    return (← rootOf cx.tolerance x n, i ++ j)

end RadixCalc
