/-!
# Digits

The forty-two symbols that numbers are written with in any base: the ten figures, the twenty-six
Latin capitals, and six further capitals. The place of a symbol in the list is its value.

* `Digit.symbol?`: the symbol of a value.
* `Digit.value?`: the value of a symbol among the first ones, capital and small letters alike.
-/

namespace RadixCalc.Digit

/-- The symbols, in the order of their values. -/
def symbols : List Char :=
  ['0', '1', '2', '3', '4', '5', '6', '7', '8', '9',
   'A', 'B', 'C', 'D', 'E', 'F', 'G', 'H', 'I', 'J', 'K', 'L', 'M',
   'N', 'O', 'P', 'Q', 'R', 'S', 'T', 'U', 'V', 'W', 'X', 'Y', 'Z',
   'Æ', 'Ø', 'Å', 'Ð', 'Þ', 'Œ']

/-- The number of symbols, which is the largest base. -/
def count : Nat := 42

theorem length_symbols : symbols.length = count := rfl

/-- The symbol of value `i`. -/
def symbol? (i : Nat) : Option Char :=
  symbols[i]?

/-- The symbol of value `i`, or a question mark past the last one. -/
def symbol (i : Nat) : Char :=
  (symbol? i).getD '?'

/-- The symbol that a character is a form of: a symbol is a form of itself, a small letter of its
capital, and `I` and `S` have a second small letter each. Any other character is left as it is. -/
def capital (c : Char) : Char :=
  match c with
  | 'æ' => 'Æ'
  | 'ø' => 'Ø'
  | 'å' => 'Å'
  | 'ð' => 'Ð'
  | 'þ' => 'Þ'
  | 'œ' => 'Œ'
  | 'ı' => 'I'
  | 'ſ' => 'S'
  | c => c.toUpper

/-- The value of a character as one of the first `n` symbols, if it is a form of one. -/
def value? (n : Nat) (c : Char) : Option Nat :=
  (symbols.take n).idxOf? (capital c)

end RadixCalc.Digit
