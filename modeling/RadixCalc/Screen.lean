import RadixCalc.Keypad

/-!
# The screen

The calculator behind its window: whether the field has the focus, whether the panel of the workings
is open, and the texts that are shown.

* `Screen`: the calculator and the state of its window.
* `Screen.settle`: gives the focus to the field when the calculator wants it there.
* `Screen.pressKey`, `Screen.pressFirst?`, `Screen.pressLast?`: what the user does.
* `Screen.texts`: what the user sees.
-/

namespace RadixCalc

/-- The keys that do more than enter text. -/
inductive Key where
  /-- Enter, alone or with Shift, at which the field gives up the focus. -/
  | enter
  /-- Enter with Control. -/
  | controlEnter
  | escape
deriving DecidableEq, Repr

/-- The calculator in its window. -/
structure Screen where
  calculator : Calculator
  /-- Whether the field has the focus. -/
  focused : Bool
  /-- Whether the panel of the workings is open. -/
  panelOpen : Bool

namespace Screen

/-- Gives the focus to the field when the calculator wants it there. -/
def settle (s : Screen) : Screen :=
  { s with
    calculator := { s.calculator with wantsFocus := false }
    focused := s.focused || s.calculator.wantsFocus }

/-- What the calculator does by itself, seen in its window. -/
def map (f : Calculator → Calculator) (s : Screen) : Screen :=
  { s with calculator := f s.calculator }.settle

/-- The window at the start. -/
def initial : Screen := settle ⟨.initial, false, false⟩

/-- What a key does. A line is run by Enter only if the field keeps the focus. -/
def pressKey (s : Screen) : Key → Screen
  | .enter => { s with focused := false }
  | .controlEnter => if s.focused then s.map Calculator.run else s
  | .escape => s.map Calculator.clearEntry

/-- What a button does. -/
def press (s : Screen) (b : Button) : Screen :=
  if b.action = .panel then { s with panelOpen := !s.panelOpen } else s.map (·.press b)

/-- Presses the first button with a label. -/
def pressFirst? (s : Screen) (label : String) : Option Screen :=
  (s.calculator.buttons.find? (·.label == label)).map s.press

/-- Presses the last button with a label. -/
def pressLast? (s : Screen) (label : String) : Option Screen :=
  (s.calculator.buttons.reverse.find? (·.label == label)).map s.press

/-- A line of the transcript as it is shown. -/
def lineText : Line → String
  | .input text => "> " ++ text
  | .output text | .warning text | .error text => text

/-- The texts of the panel. -/
def panelTexts (c : Calculator) : List String :=
  ["Jetons :", c.workings.tokens, "RPN :", c.workings.listing, "Arbre :", c.workings.tree,
   "Incidents :", "\n".intercalate c.incidents]

/-- All texts but those of the buttons, in the order of display. -/
def texts (s : Screen) : List String :=
  let c := s.calculator
  ["Calculatrice Q-base", "Entrée :"] ++ (if c.error.isEmpty then [] else [c.error]) ++
    c.transcript.lines.map lineText ++ (if s.panelOpen then panelTexts c else [])

end Screen

end RadixCalc
