import RadixCalc.Numeral.Natural
import RadixCalc.Text.Quoted

/-!
# Faults

Everything that can go wrong, as the cause and its data; the wording is in `message` alone. Some
faults stop the work, and some can be recovered from: a quotient by zero or an unknown digit
counts as zero, and a missing closing parenthesis is supplied at the end.

* `Malformation`: why a text is no expression.
* `RootFault`: why a root cannot be taken.
* `Fault`: all faults.
* `Fault.message`, `Fault.isRecoverable`.
-/

namespace RadixCalc

/-- Why a text is not an expression: because of the order of its tokens, or of one of its words. -/
inductive Malformation where
  /-- Two words in a row. -/
  | valueAfterValue
  /-- A function name right behind a value. -/
  | callAfterValue
  /-- An opening parenthesis right behind a value. -/
  | groupAfterValue
  /-- A comma with no value before it. -/
  | emptyArgument
  /-- A comma outside the arguments of a call. -/
  | strayComma
  /-- A closing parenthesis that closes nothing. -/
  | strayClose
  /-- Parentheses around nothing. -/
  | emptyGroup
  /-- A binary operator with no value before it. -/
  | missingLeft
  /-- A sign that only the postfix order knows. -/
  | signOutOfPlace
  /-- An end where a value should come. -/
  | missingLast
  /-- A tree deeper than is accepted. -/
  | tooDeep
  /-- An operator of the postfix order with too few operands. -/
  | missingOperand
  /-- A parenthesis or a comma in the postfix order. -/
  | grouping
  /-- No value, or several, at the end of the postfix order. -/
  | incomplete
  /-- A numeral of more fractional digits than are counted. -/
  | tooManyDigits
  /-- A reason given in words. -/
  | stated (reason : String)
deriving DecidableEq, Repr

/-- The wording of a malformation. -/
def Malformation.message : Malformation → String
  | valueAfterValue => "deux valeurs se suivent sans opérateur"
  | callAfterValue => "valeur suivie d’une fonction sans opérateur"
  | groupAfterValue => "valeur suivie de '(' sans opérateur"
  | emptyArgument => "argument vide"
  | strayComma => "',' hors d’un appel de fonction"
  | strayClose => "')' sans '(' correspondante"
  | emptyGroup => "parenthèses vides"
  | missingLeft => "opérande manquant avant un opérateur"
  | signOutOfPlace => "jeton interne inattendu"
  | missingLast => "opérande manquant en fin d’expression"
  | tooDeep => "expression trop profonde"
  | missingOperand => "opérande manquant"
  | grouping => "parenthèse inattendue en RPN"
  | incomplete => "expression vide ou incomplète"
  | tooManyDigits => "trop de chiffres"
  | stated reason => reason

/-- Why a root cannot be taken. -/
inductive RootFault where
  /-- A root of order zero. -/
  | zeroOrder
  /-- An order past what is computed. -/
  | orderTooLarge (order : Rat)
  /-- A root of even order of a negative number. -/
  | evenOrderOfNegative (order : Int) (radicand : Rat)
  /-- A reason given in words. -/
  | stated (reason : String)
deriving DecidableEq, Repr

/-- The wording of a root fault. -/
def RootFault.message : RootFault → String
  | zeroOrder => "racine d’ordre 0"
  | orderTooLarge order => "ordre trop grand : " ++ fractionText order
  | evenOrderOfNegative order radicand =>
    "racine d’ordre pair (" ++ integerText order ++ ") d’un nombre négatif ("
      ++ fractionText radicand ++ ")"
  | stated reason => reason

/-- What can go wrong. -/
inductive Fault where
  /-- A tolerance that is not positive. -/
  | badTolerance (tolerance : Rat)
  /-- A bracket at whose ends the function is not on opposite sides of the target. -/
  | badBracket (target atLeft atRight : Rat)
  | badRoot (cause : RootFault)
  | divisionByZero
  /-- A character that is no digit of the radix, which is given by its text. -/
  | unknownDigit (digit : Char) (radix : String)
  /-- A parenthesis still open at the end. -/
  | missingClose
  | malformed (cause : Malformation)
  | unexpectedChar (c : Char)
  | unknownFunction (name : String)
  | wrongArity (function : String) (expected received : Nat)
  /-- A text that an assignment cannot bind. -/
  | badName (name : String)
  /-- An exponent, given by its text, past what is computed. -/
  | exponentTooLarge (exponent : String)
  /-- A number of too many bits to be written in a radix, which is given by its text. -/
  | numberTooLong (bits : Nat) (radix : String)
  | badRadix (value : Rat)
  | badSetting (name : String) (value : Rat) (reason : String)
deriving DecidableEq, Repr

namespace Fault

/-- The wording of a fault. -/
def message : Fault → String
  | badTolerance tolerance =>
    "tolérance invalide : " ++ fractionText tolerance ++ " (doit être > 0)"
  | badBracket target atLeft atRight =>
    "crochet invalide : f doit être au-dessus de la cible d’un côté et en dessous de l’autre. "
      ++ "Cible : " ++ fractionText target ++ ". f(gauche) = " ++ fractionText atLeft
      ++ ". f(droite) = " ++ fractionText atRight
  | badRoot cause => "racine invalide : " ++ cause.message
  | divisionByZero => "division par zéro"
  | unknownDigit digit radix => "chiffre inconnu '" ++ digit.toString ++ "' en base " ++ radix
  | missingClose => "parenthèse fermante manquante (ajoutée en fin d’expression)"
  | malformed cause => "expression invalide : " ++ cause.message
  | unexpectedChar c => "caractère inattendu: '" ++ c.toString ++ "'"
  | unknownFunction name => "fonction inconnue : " ++ name
  | wrongArity function expected received =>
    function ++ " attend " ++ decimal expected ++ " argument(s), reçu " ++ decimal received
  | badName name => "nom invalide pour une affectation : " ++ Text.quoted name
  | exponentTooLarge exponent => "exposant trop grand : " ++ exponent
  | numberTooLong bits radix =>
    "nombre trop long pour être écrit en base " ++ radix ++ " (" ++ decimal bits ++ " bits)"
  | badRadix value => "base invalide : " ++ fractionText value ++ " (attendu 2 ≤ base ≤ 42)"
  | badSetting name value reason =>
    "réglage invalide " ++ name ++ " = " ++ fractionText value ++ " : " ++ reason

/-- Whether a line goes on after the fault, with a value or a parenthesis in place of what
failed. -/
def isRecoverable : Fault → Bool
  | divisionByZero | unknownDigit _ _ | missingClose => true
  | _ => false

end Fault

end RadixCalc
