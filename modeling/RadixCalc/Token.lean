import RadixCalc.Scope

/-!
# Tokens

The pieces of an expression. A word is a numeral or a name: which of the two is decided when its
value is read. The sign of a negation is not told from that of a subtraction before the tokens are
put in postfix order, so only there `Token.neg` occurs.

* `Operator`, `Token`: the pieces, with their texts.
* `arity?`: the functions and their numbers of arguments.
* `Token.joined`: a sequence of tokens as text.
-/

namespace RadixCalc

/-- The binary operators. -/
inductive Operator where
  | add
  | sub
  | mul
  | div
  | pow
deriving DecidableEq, Repr

namespace Operator

/-- The sign of an operator. -/
def sign : Operator → Char
  | add => '+'
  | sub => '-'
  | mul => '*'
  | div => '/'
  | pow => '^'

/-- The operator that a character is the sign of. -/
def ofChar? : Char → Option Operator
  | '+' => some add
  | '-' => some sub
  | '*' => some mul
  | '/' => some div
  | '^' => some pow
  | _ => none

/-- How strongly an operator binds: a sum least, then a product, and a power most. A negation binds
between the last two. -/
def strength : Operator → Nat
  | add | sub => 1
  | mul | div => 2
  | pow => 4

theorem ofChar?_sign (o : Operator) : ofChar? o.sign = some o := by cases o <;> rfl

end Operator

/-- The pieces of an expression. -/
inductive Token where
  /-- A numeral or a name. -/
  | word (text : String)
  /-- The name of a function, before its arguments. -/
  | call (name : String)
  | op (o : Operator)
  /-- The sign of a negation. -/
  | neg
  | opening
  | closing
  /-- What divides the arguments of a call. -/
  | comma
deriving DecidableEq, Repr

/-- The number of arguments of a function. -/
def arity? (name : String) : Option Nat :=
  if name = "root" then some 2
  else if name = "sqrt" then some 1
  else none

namespace Token

/-- The text of a token. -/
def text : Token → String
  | word text => text
  | call name => name
  | op o => o.sign.toString
  | neg => "neg"
  | opening => "("
  | closing => ")"
  | comma => ","

/-- The texts of tokens with a space between any two. -/
def joined (ts : List Token) : String :=
  " ".intercalate (ts.map text)

end Token

end RadixCalc
