import RadixCalc.Evaluation
import RadixCalc.Text.LowerCase
import RadixCalc.Transcript

/-!
# The calculator

What the calculator remembers between two lines, and what a line does to it. A line that begins with
`#` is a command, and any other is evaluated in the input radix of the scope and its value is
written as the settings say.

* `Calculator`: the field being filled, the transcript, the last fault, the workings and the scope.
* `Calculator.runLine`: what a line does.
* `Calculator.run`: runs the field and empties it.
* `Calculator.inputDigits`: the symbols of the input radix.
-/

namespace RadixCalc

/-- The state of the calculator. -/
structure Calculator where
  /-- The text of the field. -/
  entry : String
  transcript : Transcript
  /-- The wording of the fault of the last line, if it failed. -/
  error : String
  /-- How the last line was understood. -/
  workings : Workings
  /-- The incidents of the last line. -/
  incidents : List String
  scope : Scope
  /-- Whether the field should hold the focus again. -/
  wantsFocus : Bool

namespace Calculator

/-- The first line of the transcript. -/
def welcome : String := "Tapez #usage pour les instructions"

/-- The lines of the command `#usage`. -/
def usageLines : List String :=
  ["#clear : efface l’historique",
   "#list  : liste les constantes en usage",
   "#reset : remet l’environnement de travail par défaut",
   "$precision, $input_base et $output_base règlent le calcul et la lecture",
   "$frac non nul : résultats en fraction n/d",
   "nom := expression : définit une constante (toujours lue en base 10)"]

/-- The calculator at the start. -/
def initial : Calculator where
  entry := ""
  transcript := .ofList [.output welcome]
  error := ""
  workings := {}
  incidents := []
  scope := .initial
  wantsFocus := true

/-- Adds a line to the transcript. -/
def display (c : Calculator) (l : Line) : Calculator :=
  { c with transcript := c.transcript.push l }

/-- Adds lines to the transcript. -/
def displayAll (c : Calculator) (ls : List Line) : Calculator :=
  { c with transcript := c.transcript.pushAll ls }

/-- Reports a fault. What was known of the line before is forgotten. -/
def fail (c : Calculator) (message : String) : Calculator :=
  { c with
    transcript := c.transcript.push (.error message)
    error := message
    workings := {}
    incidents := []
    wantsFocus := true }

/-- Empties the field. -/
def clearEntry (c : Calculator) : Calculator :=
  { c with entry := "", wantsFocus := true }

/-- Empties the transcript, and forgets the last line. -/
def clearTranscript (c : Calculator) : Calculator :=
  { c with
    transcript := .empty
    error := ""
    workings := {}
    incidents := []
    wantsFocus := true }

/-- One line for each binding, in the order of the names, with the value written as a result. -/
def listing (s : Scope) : Except Fault (List Line) := do
  let settings ← s.settings
  s.toList.mapM fun (name, value) => do
    let text ← Numeral.write value settings.outputRadix settings.precision settings.asFraction
    return .output (name ++ ": " ++ text)

/-- Shows the bindings, or the fault of the first that cannot be written. -/
def list (c : Calculator) : Calculator :=
  match listing c.scope with
  | .ok ls => c.displayAll ls
  | .error f => c.fail f.message

/-- Goes back to the scope at the start, with an empty transcript, and shows its bindings. -/
def reset (c : Calculator) : Calculator :=
  { c with scope := .initial }.clearTranscript.list

/-- Shows the instructions. -/
def usage (c : Calculator) : Calculator :=
  c.displayAll (usageLines.map .output)

/-- Carries out a command. -/
def runCommand (c : Calculator) (name : String) : Calculator :=
  if name = "#clear" then c.clearTranscript
  else if name = "#list" then c.list
  else if name = "#reset" then c.reset
  else if name = "#usage" then c.usage
  else c.fail ("commande inconnue : " ++ name)

/-- The text and the outcome of a line evaluated in the input radix of a scope, and the scope behind
it. The settings that the text is written by are those behind the line. -/
def result (line : String) (s : Scope) : Except Fault (String × Evaluation) × Scope :=
  match s.settings with
  | .error f => (.error f, s)
  | .ok settings =>
    let (outcome, s) := evaluateLine line settings.inputRadix s
    (do
      let ev ← outcome
      let settings ← s.settings
      let text ← Numeral.write ev.value settings.outputRadix settings.precision settings.asFraction
      return (text, ev), s)

/-- Evaluates a line and shows its result, with a warning for each incident, or its fault. -/
def runExpression (c : Calculator) (line : String) : Calculator :=
  let (outcome, scope) := result line c.scope
  let c := { c with scope }
  match outcome with
  | .error f => c.fail f.message
  | .ok (text, ev) =>
    let incidents := ev.incidents.map Fault.message
    { c.displayAll (.output text :: incidents.map .warning) with
      incidents
      workings := ev.workings }

/-- Runs a line, in lower case and without the blanks around it. A line with nothing else does
nothing. -/
def runLine (c : Calculator) (line : String) : Calculator :=
  let line := Text.lower (Text.trim line)
  if line.isEmpty then c
  else
    let c := { c.display (.input line) with error := "" }
    if line.toList.head? = some '#' then c.runCommand line else c.runExpression line

/-- Runs the field and empties it. -/
def run (c : Calculator) : Calculator :=
  { { c with entry := "" }.runLine c.entry with wantsFocus := true }

/-- The symbols of the digits of the input radix, or those of base ten if it is none. -/
def inputDigits (c : Calculator) : List Char :=
  Digit.symbols.take <| match c.scope.settings with
    | .ok settings => settings.inputRadix.digitCount
    | .error _ => 10

end Calculator

end RadixCalc
