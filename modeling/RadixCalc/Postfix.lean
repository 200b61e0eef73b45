import RadixCalc.Expr

/-!
# From tokens to postfix order

One pass over the tokens, which keeps what waits for an operand to its right: operators, signs and
names of functions. Powers bind to the right and the other operators to the left; a minus sign
where a value should come is a negation, which binds between products and powers, and a plus sign
there is nothing.

* `Postfix.Level`, `Postfix.State`: what is known inside each open parenthesis, and in all.
* `Postfix.State.step`: the state after one token.
* `toPostfix`: the tokens in postfix order, and the number of closing parentheses that were missing
  and have been supplied at the end.
-/

namespace RadixCalc

namespace Postfix

/-- What is known inside one parenthesis, or outside of all. -/
structure Level where
  /-- The operators, signs and functions that wait for an operand, last one first. -/
  waiting : List Token
  /-- The function of which the parenthesis holds the arguments, and the number of arguments before
  the last comma. -/
  call : Option (String × Nat)
deriving DecidableEq, Repr

/-- What is known between two tokens. -/
structure State where
  /-- The tokens written so far, last one first. -/
  written : List Token
  /-- The innermost level. -/
  level : Level
  /-- The levels around it, innermost first. -/
  outer : List Level
  /-- Whether a value has just ended, so that no other may begin. -/
  valued : Bool
deriving DecidableEq, Repr

/-- How strongly a negation binds: more than a product, less than a power. -/
def negStrength : Nat := 3

/-- Whether a waiting token takes its operand before the operator `o` does: when it binds more
strongly, or as strongly and `o` binds to the left. -/
def precedes (o : Operator) (t : Token) : Bool :=
  let binds (n : Nat) : Bool := if o = .pow then o.strength < n else o.strength ≤ n
  match t with
  | .op p => binds p.strength
  | .neg => binds negStrength
  | _ => false

namespace State

/-- The state before the first token. -/
def start : State := ⟨[], ⟨[], none⟩, [], false⟩

/-- The tokens written, last one first, when all that waits on the innermost level has been written
behind them. -/
def flushed (s : State) : List Token := s.level.waiting.reverse ++ s.written

/-- The state with one more token waiting. -/
def await (s : State) (t : Token) : State :=
  { s with level := { s.level with waiting := t :: s.level.waiting }, valued := false }

/-- The state behind an opening parenthesis, which is that of a call when a function waits last. -/
def opened (s : State) : State :=
  match s.level.waiting with
  | .call f :: waiting =>
    ⟨s.written, ⟨[], some (f, 0)⟩, { s.level with waiting } :: s.outer, false⟩
  | _ => ⟨s.written, ⟨[], none⟩, s.level :: s.outer, false⟩

/-- The state behind a closing parenthesis. A call has to have as many arguments as its function
takes, and any other parenthesis a value inside. -/
def close (s : State) : Except Fault State :=
  match s.outer with
  | [] => .error (.malformed .strayClose)
  | level :: outer =>
    match s.level.call with
    | some (f, n) =>
      let received := if s.valued then n + 1 else n
      let expected := (arity? f).getD 0
      if received = expected then .ok ⟨.call f :: s.flushed, level, outer, true⟩
      else .error (.wrongArity f expected received)
    | none =>
      if s.valued then .ok ⟨s.flushed, level, outer, true⟩ else .error (.malformed .emptyGroup)

/-- The state behind a comma, which has to end an argument of a call. -/
def separate (s : State) : Except Fault State :=
  if s.valued then
    match s.level.call with
    | some (f, n) => .ok ⟨s.flushed, ⟨[], some (f, n + 1)⟩, s.outer, false⟩
    | none => .error (.malformed .strayComma)
  else .error (.malformed .emptyArgument)

/-- The state behind an operator with a value on its left: what precedes it is written, and the
operator waits. -/
def combine (s : State) (o : Operator) : State :=
  let written := (s.level.waiting.takeWhile (precedes o)).reverse ++ s.written
  let waiting := .op o :: s.level.waiting.dropWhile (precedes o)
  ⟨written, { s.level with waiting }, s.outer, false⟩

/-- The state behind an operator where a value should begin, which only a sign may be. -/
def sign (s : State) : Operator → Except Fault State
  | .add => .ok s
  | .sub => .ok (s.await .neg)
  | _ => .error (.malformed .missingLeft)

/-- The state behind one more token. -/
def step (s : State) : Token → Except Fault State
  | .word text =>
    if s.valued then .error (.malformed .valueAfterValue)
    else .ok { s with written := .word text :: s.written, valued := true }
  | .call f =>
    if s.valued then .error (.malformed .callAfterValue) else .ok (s.await (.call f))
  | .opening =>
    if s.valued then .error (.malformed .groupAfterValue) else .ok s.opened
  | .comma => s.separate
  | .closing => s.close
  | .op o => if s.valued then .ok (s.combine o) else s.sign o
  | .neg => .error (.malformed .signOutOfPlace)

/-- The state behind `n` closing parentheses, and `supplied` more than the number of those that were
tried. -/
def closeMissing (s : State) (supplied : Nat) : Nat → Nat × Except Fault State
  | 0 => (supplied, .ok s)
  | n + 1 =>
    match s.close with
    | .ok s => s.closeMissing (supplied + 1) n
    | .error f => (supplied + 1, .error f)

end State

end Postfix

open Postfix in
/-- The tokens in postfix order, behind the number of closing parentheses supplied at the end. -/
def toPostfix (ts : List Token) : Nat × Except Fault (List Token) :=
  match ts.foldlM State.step State.start with
  | .error f => (0, .error f)
  | .ok s =>
    if !ts.isEmpty && !s.valued then (0, .error (.malformed .missingLast))
    else
      let (supplied, closed) := s.closeMissing 0 s.outer.length
      (supplied, closed.map fun s => s.flushed.reverse)

end RadixCalc
