import RadixCalc.Text.Printable

/-!
# Quoted text

A text between double quotes, in which the quote, the backslash and what cannot be shown are
written as escapes: `\0`, `\t`, `\n` and `\r` by name, the rest by the code point in hexadecimal.
-/

namespace RadixCalc.Text

/-- How a character is written between the quotes. -/
def escape (c : Char) : List Char :=
  match c with
  | '\x00' => ['\\', '0']
  | '\t' => ['\\', 't']
  | '\n' => ['\\', 'n']
  | '\r' => ['\\', 'r']
  | '"' => ['\\', '"']
  | '\\' => ['\\', '\\']
  | c =>
    if isPrintable c then [c]
    else ['\\', 'u', '\x7b'] ++ Nat.toDigits 16 c.toNat ++ ['\x7d']

/-- A text between double quotes, with its escapes. -/
def quoted (s : String) : String :=
  String.ofList ('"' :: s.toList.flatMap escape ++ ['"'])

end RadixCalc.Text
