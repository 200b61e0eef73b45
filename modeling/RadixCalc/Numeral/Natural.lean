import RadixCalc.Digit

/-!
# Natural numbers in an integer base

The digits of a natural number, most significant first, without leading zeros. A number below
`r ^ 2 ^ k` is cut in two by one division by `r ^ 2 ^ (k - 1)`, and each half in turn, so that the
digits of a long number cost a few long divisions and not one division each.

* `bitLength`: the number of binary digits.
* `digits`: the digits in base `r`; zero has none.
* `decimal`, `integerText`, `fractionText`: natural numbers, integers and rationals in base ten.
-/

namespace RadixCalc

/-- The number of binary digits of `n`, none for zero. -/
def bitLength (n : Nat) : Nat :=
  if n = 0 then 0 else n.log2 + 1

/-- The `2 ^ k` last digits of `n` in base `r`, with leading zeros, written in front of `rest`.
Above `r ^ 2 ^ k` the first digit takes the excess. -/
def digitsBefore (r : Nat) : (k n : Nat) → (rest : List Nat) → List Nat
  | 0, n, rest => n :: rest
  | k + 1, n, rest =>
    let half := r.pow (Nat.pow 2 k)
    digitsBefore r k (n / half) (digitsBefore r k (n % half) rest)

/-- A `k` for which `2 ^ k` digits in base `r` hold `n`: a digit holds `log2 r` bits at least. -/
def widthExponent (r n : Nat) : Nat :=
  (n.log2 / r.log2).log2 + 1

/-- The digits of `n` in base `r`, without leading zeros. -/
def digits (r n : Nat) : List Nat :=
  (digitsBefore r (widthExponent r n) n []).dropWhile (· == 0)

/-- A natural number in base ten. -/
def decimal (n : Nat) : String :=
  if n = 0 then "0" else String.ofList ((digits 10 n).map Digit.symbol)

/-- An integer in base ten. -/
def integerText (n : Int) : String :=
  if n < 0 then "-" ++ decimal n.natAbs else decimal n.natAbs

/-- A rational in base ten: an integer, or numerator and denominator in lowest terms. -/
def fractionText (q : Rat) : String :=
  if q.den = 1 then integerText q.num else integerText q.num ++ "/" ++ decimal q.den

end RadixCalc
