import RadixCalc.Calculator

/-!
# The keypad

The buttons of the calculator. Most of them insert a symbol at the end of the field, with a space
where the symbols around it want one; `DEL` takes the last symbol off again.

* `Placement`, `insert`: how a symbol is put behind a text.
* `deleteLast`: a text without its last symbol.
* `Button`, `Calculator.buttons`: the buttons in the order of display.
-/

namespace RadixCalc

namespace Keypad

/-- How a symbol is put behind a text. -/
inductive Placement where
  /-- Without any space. -/
  | digit
  /-- With a space behind a letter, a numeric character or a closing parenthesis. -/
  | word
  /-- As a word, looking past the blanks at the end. -/
  | opening
  /-- In place of the spaces at the end. -/
  | closing
  /-- In place of the spaces at the end, with a space on either side. -/
  | operator
deriving DecidableEq, Repr

/-- Whether a symbol that begins something new wants a space behind the character. -/
def endsValue (c : Char) : Bool :=
  Text.isAlphanumeric c || c == ')'

/-- A text without the spaces at its end. -/
def dropSpaces (t : List Char) : List Char :=
  Text.dropEnd (· == ' ') t

/-- A space behind the text if `last` ends a value. -/
def spaceAfter (last : Option Char) (t : List Char) : List Char :=
  if last.any endsValue then t ++ [' '] else t

/-- A symbol put behind a text. -/
def insert (placement : Placement) (symbol t : List Char) : List Char :=
  match placement with
  | .digit => t ++ symbol
  | .word => spaceAfter t.getLast? t ++ symbol
  | .opening => spaceAfter (t.reverse.find? (!Text.isBlank ·)) t ++ symbol
  | .closing => dropSpaces t ++ symbol
  | .operator =>
    let t := dropSpaces t
    (if t.isEmpty then t else t ++ [' ']) ++ symbol ++ [' ']

/-- The symbols of several characters that are taken off at once. -/
def composites : List (List Char) :=
  [['s', 'q', 'r', 't', '('], ['r', 'o', 'o', 't', '('], [':', '=']]

/-- A text without the spaces at its end and the last symbol before them, which is a composite one
or a single character. -/
def deleteLast (t : List Char) : List Char :=
  let t := dropSpaces t
  match composites.find? (·.isSuffixOf t) with
  | some symbol => t.take (t.length - symbol.length)
  | none => t.dropLast

end Keypad

open Keypad

/-- What a button does. -/
inductive Button.Action where
  /-- Empties the field. -/
  | clear
  /-- Takes the last symbol off the field. -/
  | delete
  /-- Runs the label as a line. -/
  | command
  /-- Inserts a symbol into the field. -/
  | insert (placement : Placement) (symbol : String)
  /-- Runs the field. -/
  | run
  /-- Opens or closes the panel of the workings. -/
  | panel
deriving DecidableEq, Repr

/-- A button. -/
structure Button where
  label : String
  action : Button.Action
deriving DecidableEq, Repr

namespace Button

/-- A button that inserts its label. -/
def symbol (placement : Placement) (label : String) : Button :=
  ⟨label, .insert placement label⟩

/-- The buttons above the digits. -/
def fixed : List Button :=
  [⟨"C", .clear⟩, ⟨"DEL", .delete⟩] ++
  ["#clear", "#list", "#reset", "#usage"].map (⟨·, .command⟩) ++
  [symbol .opening "(", symbol .closing ")"] ++
  ["+", "-", "*", "/", "^"].map (symbol .operator) ++
  [⟨",", .insert .digit ", "⟩, symbol .operator ":=", symbol .word "pi", symbol .word "e",
   ⟨"sqrt", .insert .opening "sqrt("⟩, ⟨"root", .insert .opening "root("⟩, ⟨"=", .run⟩]

/-- The button of the panel. -/
def panel : Button := ⟨"Démarche", .panel⟩

end Button

namespace Calculator

/-- The buttons in the order of display: the digits are those of the input radix. -/
def buttons (c : Calculator) : List Button :=
  Button.fixed ++ c.inputDigits.map (fun d => .symbol .digit d.toString) ++
    [.symbol .digit ".", .panel]

/-- What a button does to the calculator. All buttons but that of the panel give the focus back to
the field. -/
def press (c : Calculator) (b : Button) : Calculator :=
  match b.action with
  | .clear => c.clearEntry
  | .delete =>
    { c with entry := String.ofList (deleteLast c.entry.toList), wantsFocus := true }
  | .command => { c.runLine b.label with wantsFocus := true }
  | .insert placement symbol =>
    { c with
      entry := String.ofList (insert placement symbol.toList c.entry.toList)
      wantsFocus := true }
  | .run => c.run
  | .panel => c

end Calculator

end RadixCalc
