import RadixCalc.Scope

/-!
# Reading a number

A text is read in a radix as the value of a name, or else as a positional numeral: a minus sign or
none, digits, and one point or comma among them.

* `Expansion.ofChars`: the digits of a numeral without its sign.
* `Expansion.checkedValue`: their value, unless the fraction is too long.
* `Numeral.read`: the value of a text.
-/

namespace RadixCalc

/-- A character that may stand between the whole digits and the fractional ones. -/
def isSeparator (c : Char) : Bool :=
  c == '.' || c == ','

/-- The value of a character as a digit of the radix. -/
def Radix.digit (β : Radix) (c : Char) : Except Fault Nat :=
  match Digit.value? β.digitCount c with
  | some d => .ok d
  | none => .error (.unknownDigit c β.text)

/-- The expansion that characters spell, the first separator dividing the whole digits from the
fractional ones. The first character that is no digit, a second separator included, is a fault. -/
def Expansion.ofChars (β : Radix) (cs : List Char) : Except Fault Expansion := do
  let whole ← (cs.takeWhile (!isSeparator ·)).mapM β.digit
  let fraction ← ((cs.dropWhile (!isSeparator ·)).drop 1).mapM β.digit
  return ⟨whole, fraction⟩

/-- The most fractional digits of a numeral, `2 ^ 31 - 1`: their number is the exponent of a power of
the radix, which is held in 32 bits with a sign. -/
def maxFractionDigits : Nat := 2147483647

/-- The value of an expansion that has been read, unless its fraction is too long. -/
def Expansion.checkedValue (β : Radix) (x : Expansion) : Except Fault Rat :=
  if maxFractionDigits < x.fraction.length then .error (.malformed .tooManyDigits)
  else .ok (x.value β)

namespace Numeral

/-- The value that characters spell in a radix. -/
def readChars (β : Radix) (cs : List Char) : Except Fault Rat :=
  match cs with
  | '-' :: cs => do return -(← (← Expansion.ofChars β cs).checkedValue β)
  | cs => do (← Expansion.ofChars β cs).checkedValue β

/-- The value of a text: nothing is zero, a bound name is its value, and any other text is a
numeral. -/
def read (text : String) (β : Radix) (scope : Scope) : Except Fault Rat :=
  let t := Text.trim text
  if t.isEmpty then .ok 0
  else match scope.get? t with
    | some value => .ok value
    | none => readChars β t.toList

end Numeral

end RadixCalc
