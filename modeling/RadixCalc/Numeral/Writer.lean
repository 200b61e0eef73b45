import RadixCalc.Numeral.Expansion

/-!
# Writing a number

A rational is written in a radix as a positional numeral, cut off towards zero after a number of
fractional digits, or as a quotient of two whole numerals. What would take too long to write is
refused by its size.

* `Numeral.writePositional`: the numeral with a point.
* `Numeral.write`: the numeral, or the quotient of two.
-/

namespace RadixCalc

/-- The largest number of fractional digits that is written. -/
def maxPrecision : Nat := 1000

/-- The largest number of bits of a number written in an integer radix. -/
def maxBits : Nat := 1000000

/-- The largest number of bits of a number written in any other radix, where each digit takes a
division. -/
def maxGreedyBits : Nat := 20000

/-- The number of bits of a rational, that of the longer of its two parts. -/
def ratBits (q : Rat) : Nat :=
  max (bitLength q.num.natAbs) (bitLength q.den)

namespace Numeral

/-- The largest number of bits of a number written in a radix. -/
def bitLimit (β : Radix) : Nat :=
  if β.integer?.isSome then maxBits else maxGreedyBits

/-- A sign before the symbols of a negative number, unless they are those of zero. -/
def signed (negative : Bool) (cs : List Char) : List Char :=
  if negative && cs != ['0'] then '-' :: cs else cs

/-- A rational as a numeral with at most `p` fractional digits. -/
def writePositional (q : Rat) (β : Radix) (p : Nat) : Except Fault String :=
  if bitLimit β < ratBits q then .error (.numberTooLong (ratBits q) β.text)
  else .ok (String.ofList (signed (q < 0) (Expansion.ofRat β q p).trimmed.text))

/-- A rational as text: with `asFraction` a number that is not whole is written as a quotient of
two whole numerals, and otherwise as one numeral, to `p` places or to the largest number of places
if `p` is more. -/
def write (q : Rat) (β : Radix) (p : Nat) (asFraction : Bool) : Except Fault String :=
  if asFraction && q.den != 1 then do
    let n ← writePositional q.num β 0
    let d ← writePositional q.den β 0
    return n ++ "/" ++ d
  else writePositional q β (min p maxPrecision)

end Numeral

end RadixCalc
