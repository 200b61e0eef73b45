import RadixCalc.Text.Ranges

/-!
# Blanks

The white space of Unicode, and the text left when it is taken off one end or both.

* `isBlank`: the twenty-five white characters.
* `dropEnd`, `trim`: a text without the characters of a kind at its end, and without the blanks
  at either end.
-/

namespace RadixCalc.Text

/-- The code points with the property White_Space. -/
def blankRanges : List (Nat × Nat) :=
  [(0x0009, 0x000D), (0x0020, 0x0020), (0x0085, 0x0085), (0x00A0, 0x00A0), (0x1680, 0x1680),
   (0x2000, 0x200A), (0x2028, 0x2029), (0x202F, 0x202F), (0x205F, 0x205F), (0x3000, 0x3000)]

/-- White space: tabs, ends of line, and the spaces of any width but zero. -/
def isBlank (c : Char) : Bool :=
  inRanges blankRanges c.toNat

/-- A text without the characters satisfying `p` at its end. -/
def dropEnd (p : Char → Bool) (s : List Char) : List Char :=
  (s.reverse.dropWhile p).reverse

/-- A text without the blanks at its two ends. -/
def trim (s : String) : String :=
  String.ofList (dropEnd isBlank (s.toList.dropWhile isBlank))

end RadixCalc.Text
