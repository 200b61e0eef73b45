import RadixCalc.Expr.Value
import RadixCalc.Postfix
import RadixCalc.Token.Scan

/-!
# Evaluating a line

A line is an expression, or an assignment `name := expression`. The expression of an assignment is
read in base ten whatever the radix of the line.

* `Evaluation`: the value of a line, the incidents and the workings.
* `evaluate`: the value of an expression given as text.
* `splitAssignment?`: the two sides of an assignment.
* `evaluateLine`: what becomes of a line, and the scope behind it.
-/

namespace RadixCalc

/-- How a line was understood: its tokens, their postfix order, and the tree, as texts. -/
structure Workings where
  tokens : String := ""
  listing : String := ""
  tree : String := ""
deriving DecidableEq, Repr

/-- The outcome of a line. -/
structure Evaluation where
  value : Rat
  incidents : List Fault
  workings : Workings
deriving DecidableEq

/-- The value of an expression given as text. An empty one is zero. The parentheses supplied at its
end come first among the incidents. -/
def evaluate (text : String) (β : Radix) (scope : Scope) : Except Fault Evaluation :=
  let text := Text.trim text
  if text.isEmpty then .ok ⟨0, [], {}⟩
  else do
    let tokens ← Token.scan text
    let (supplied, listing) := toPostfix tokens
    let listing ← listing
    let tree ← Expr.ofPostfix listing
    let settings ← scope.settings
    let (value, incidents) ← tree.eval ⟨β, scope, settings.tolerance⟩
    return {
      value
      incidents := List.replicate supplied .missingClose ++ incidents
      workings := ⟨Token.joined tokens, Token.joined listing, tree.render⟩ }

/-- The characters before the first `:=` of a text and those behind it; `done` holds the characters
before the text, last one first. -/
def splitOnto (done : List Char) : List Char → Option (List Char × List Char)
  | ':' :: '=' :: rest => some (done.reverse, rest)
  | c :: rest => splitOnto (c :: done) rest
  | [] => none

/-- The two sides of an assignment, which are divided by the first `:=`. -/
def splitAssignment? (line : String) : Option (String × String) :=
  (splitOnto [] line.toList).map fun (name, expr) => (String.ofList name, String.ofList expr)

/-- The outcome of an assignment and the scope behind it. The value is the one bound, which for a
setting may differ from that of the expression. -/
def evaluateAssignment (name expr : String) (scope : Scope) : Except Fault Evaluation × Scope :=
  let name := Text.trim name
  if isName name then
    match evaluate expr Radix.ten scope with
    | .error f => (.error f, scope)
    | .ok ev =>
      match scope.assign name ev.value with
      | .error f => (.error f, scope)
      | .ok bound => (.ok { ev with value := (bound.get? name).getD ev.value }, bound)
  else (.error (.badName name), scope)

/-- The outcome of a line and the scope behind it, which is as before if the line fails. -/
def evaluateLine (line : String) (β : Radix) (scope : Scope) : Except Fault Evaluation × Scope :=
  match splitAssignment? line with
  | some (name, expr) => evaluateAssignment name expr scope
  | none => (evaluate line β scope, scope)

end RadixCalc
