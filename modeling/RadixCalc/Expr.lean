import RadixCalc.Token

/-!
# Expression trees

The tree of an expression, and its postfix order, in which every node stands behind its operands.

* `Expr`: the tree; a leaf keeps the text of its word.
* `Expr.render`: the tree as text, with parentheses around every operator.
* `Expr.toPostfix`, `Expr.ofPostfix`: from a tree to its postfix order and back. A tree deeper than
  `maxDepth` is not built.
-/

namespace RadixCalc

/-- An expression. -/
inductive Expr where
  /-- A numeral or a name. -/
  | word (text : String)
  | neg (x : Expr)
  | binary (o : Operator) (x y : Expr)
  | sqrt (x : Expr)
  /-- The root of `x` of order `n`. -/
  | root (x n : Expr)
deriving DecidableEq, Repr

namespace Expr

/-- An expression as text. -/
def render : Expr → String
  | word text => text
  | neg x => "-(" ++ x.render ++ ")"
  | binary o x y => "(" ++ x.render ++ o.sign.toString ++ y.render ++ ")"
  | sqrt x => "√(" ++ x.render ++ ")"
  | root x n => "root(" ++ x.render ++ ", " ++ n.render ++ ")"

/-- The number of nodes on the longest way from the root of the tree to a leaf. -/
def depth : Expr → Nat
  | word _ => 1
  | neg x => x.depth + 1
  | binary _ x y => max x.depth y.depth + 1
  | sqrt x => x.depth + 1
  | root x n => max x.depth n.depth + 1

/-- The tokens of an expression in postfix order. -/
def toPostfix : Expr → List Token
  | word text => [.word text]
  | neg x => x.toPostfix ++ [.neg]
  | binary o x y => x.toPostfix ++ y.toPostfix ++ [.op o]
  | sqrt x => x.toPostfix ++ [.call "sqrt"]
  | root x n => x.toPostfix ++ n.toPostfix ++ [.call "root"]

theorem toPostfix_ne_nil (e : Expr) : e.toPostfix ≠ [] := by
  cases e <;> simp [toPostfix]

/-- The greatest depth of a tree that is built. -/
def maxDepth : Nat := 256

/-- The trees that wait for the operator that takes them, last one first, each with its depth. -/
abbrev Stack := List (Expr × Nat)

namespace Stack

/-- A node and its depth put on the stack, unless it is too deep. -/
def node (st : Stack) (e : Expr) (depth : Nat) : Except Fault Stack :=
  if maxDepth < depth then .error (.malformed .tooDeep) else .ok ((e, depth) :: st)

/-- The last tree on the stack taken as the operand of a node. -/
def unary (st : Stack) (f : Expr → Expr) : Except Fault Stack :=
  match st with
  | (x, d) :: st => node st (f x) (d + 1)
  | [] => .error (.malformed .missingOperand)

/-- The last two trees on the stack taken as the operands of a node, the last one second. -/
def binary (st : Stack) (f : Expr → Expr → Expr) : Except Fault Stack :=
  match st with
  | (y, e) :: (x, d) :: st => node st (f x y) (max d e + 1)
  | _ => .error (.malformed .missingOperand)

/-- The stack after a token of the postfix order: a word is put on it, and an operator or a function
takes its operands from it. -/
def push (st : Stack) : Token → Except Fault Stack
  | .word text => .ok ((.word text, 1) :: st)
  | .neg => st.unary .neg
  | .op o => st.binary (.binary o)
  | .call name =>
    if name = "sqrt" then st.unary .sqrt
    else if name = "root" then st.binary .root
    else .error (.unknownFunction name)
  | .opening | .closing | .comma => .error (.malformed .grouping)

end Stack

/-- The tree with a given postfix order. -/
def ofPostfix (ts : List Token) : Except Fault Expr :=
  match ts.foldlM Stack.push ([] : Stack) with
  | .ok [(e, _)] => .ok e
  | .ok _ => .error (.malformed .incomplete)
  | .error f => .error f

end Expr

end RadixCalc
