import RadixCalc.Radix

/-!
# Positional expansions

The digits of a non-negative number in a radix, whole part and fraction, cut off after a number of
fractional digits.

* `scaledDigits`: for an integer radix `r`, the digits of `⌊(n / d) r ^ p⌋`.
* `greedyDigits`: for any radix, the largest digit that fits, from the leading place downwards.
* `Expansion.ofRat`: the expansion of the absolute value of a rational.
* `Expansion.value`: the number that an expansion stands for.
* `Expansion.text`: its symbols, with a point before the fraction.
-/

namespace RadixCalc

variable (β : Radix)

/-- The digits of `n / d` in an integer radix, to `p` fractional places: those of
`⌊(n / d) r ^ p⌋`, with zeros in front up to one whole digit. -/
def scaledDigits (r n d p : Nat) : List Nat :=
  (digits r (n * r.pow p / d)).leftpad (p + 1) 0

/-- The largest exponent `k` with `β ^ k ≤ n / d`, or zero when `n / d < β`. Each step divides the
quotient by a radix of at least two. -/
def leadingExponent (n d : Nat) : Nat :=
  if h : 0 < d ∧ d * β.numer ≤ n * β.denom then
    leadingExponent (n * β.denom) (d * β.numer) + 1
  else 0
termination_by n / d
decreasing_by
  have hb := β.denom_pos
  have ha := β.two_mul_denom_le
  have hq : 0 < n / d := by
    refine Nat.div_pos ?_ h.1
    refine Nat.le_of_mul_le_mul_right (Nat.le_trans ?_ h.2) hb
    exact Nat.mul_le_mul_left d (by omega)
  have hle : n * β.denom / (d * β.numer) ≤ n / d / 2 := by
    rw [Nat.div_div_eq_div_mul]
    calc n * β.denom / (d * β.numer)
        ≤ n * β.denom / (d * 2 * β.denom) := by
          refine Nat.div_le_div_left ?_ (by have := h.1; exact Nat.mul_pos (by omega) hb)
          rw [Nat.mul_assoc]
          exact Nat.mul_le_mul_left d ha
      _ = n / (d * 2) := Nat.mul_div_mul_right n (d * 2) hb
  omega

/-- The digits of `rest` from the place of weight `weight` downwards, `places` more after the
first: at each place the largest digit that fits. Every division by the radix is exact when the
weight holds its numerator `places` times. -/
def greedyFrom : (places rest weight : Nat) → List Nat
  | 0, rest, weight => [rest / weight]
  | places + 1, rest, weight =>
    rest / weight :: greedyFrom places (rest % weight) (weight * β.denom / β.numer)

/-- The digits of `n / d` in any radix, to `p` fractional places, found from the leading place
downwards on naturals scaled so that every place has a natural weight. Places are counted without
bound here; those of a number that is written fit 32 bits, by `Numeral.places_lt_of_write`. -/
def greedyDigits (n d p : Nat) : List Nat :=
  let k := leadingExponent β n d
  greedyFrom β (k + p) (n * β.denom.pow k * β.numer.pow p) (d * β.numer.pow (k + p))

/-- The digits of `n / d` to `p` fractional places, at least one of them whole. -/
def quotientDigits (n d p : Nat) : List Nat :=
  match β.integer? with
  | some r => scaledDigits r n d p
  | none => greedyDigits β n d p

/-- The digits of a number, those of its whole part and those of its fraction. -/
structure Expansion where
  whole : List Nat
  fraction : List Nat
deriving DecidableEq

namespace Expansion

/-- A sequence of digits of which the last `p` are fractional. -/
def ofDigits (ds : List Nat) (p : Nat) : Expansion :=
  ⟨ds.take (ds.length - p), ds.drop (ds.length - p)⟩

/-- The expansion of the absolute value of `q`, cut off after `p` fractional digits. -/
def ofRat (q : Rat) (p : Nat) : Expansion :=
  ofDigits (quotientDigits β q.num.natAbs q.den p) p

/-- An expansion without the zeros at the end of its fraction. -/
def trimmed (x : Expansion) : Expansion :=
  ⟨x.whole, (x.fraction.reverse.dropWhile (· == 0)).reverse⟩

/-- The number whose digits in the radix are `ds`. -/
def horner (ds : List Nat) : Rat :=
  ds.foldl (fun n (d : Nat) => n * β.value + d) 0

/-- The number that an expansion stands for. -/
def value (x : Expansion) : Rat :=
  horner β (x.whole ++ x.fraction) / β.value ^ x.fraction.length

/-- The symbols of an expansion, with a point before the fraction if there is one. -/
def text (x : Expansion) : List Char :=
  x.whole.map Digit.symbol ++
    if x.fraction.isEmpty then [] else '.' :: x.fraction.map Digit.symbol

end Expansion

end RadixCalc
