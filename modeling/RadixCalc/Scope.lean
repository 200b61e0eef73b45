import RadixCalc.Constant
import RadixCalc.Radix
import RadixCalc.Numeral.Writer
import RadixCalc.Text.Blank
import RadixCalc.Text.Number
import Std.Data.TreeMap

/-!
# The scope of names

The values bound to names, in the order of the names. Some names are settings: what is bound to
them says how lines are read and results are written.

* `isName`: the texts that an assignment may bind.
* `Scope`: the bindings; `Scope.define` binds any text, `Scope.assign` what an assignment may.
* `Settings`, `Scope.settings`: the settings as they stand, with defaults for those not bound.
-/

namespace RadixCalc

/-- A character that begins a name: a letter, `_` or `$`. -/
def isNameStart (c : Char) : Bool :=
  Text.isLetter c || c == '_' || c == '$'

/-- A character inside a name: a letter, a numeric character, `_` or `$`. -/
def isNameChar (c : Char) : Bool :=
  Text.isAlphanumeric c || c == '_' || c == '$'

/-- Whether a text is a name, that is a name character that is no number, and then name
characters. -/
def isName (s : String) : Bool :=
  match s.toList with
  | [] => false
  | c :: cs => isNameStart c && cs.all isNameChar

/-- The names of the settings. -/
inductive Setting where
  /-- The number of fractional digits of a result. -/
  | precision
  /-- The radix in which lines are read. -/
  | inputRadix
  /-- The radix in which results are written. -/
  | outputRadix
  /-- Whether results are written as quotients. -/
  | fraction
  /-- The tolerance of roots. -/
  | epsilon
deriving DecidableEq

/-- The name that a setting is bound to. -/
def Setting.name : Setting → String
  | precision => "$precision"
  | inputRadix => "$input_base"
  | outputRadix => "$output_base"
  | fraction => "$frac"
  | epsilon => "$epsilon"

/-- Names and the values bound to them. -/
structure Scope where
  bindings : Std.TreeMap String Rat

namespace Scope

/-- No binding at all. -/
def empty : Scope := ⟨∅⟩

/-- The value bound to a name. -/
def get? (s : Scope) (name : String) : Option Rat := s.bindings[name]?

/-- Whether a name is bound. -/
def contains (s : Scope) (name : String) : Bool := s.bindings.contains name

/-- A scope in which a name has a new value, whatever the two are. -/
def define (s : Scope) (name : String) (value : Rat) : Scope :=
  ⟨s.bindings.insert name value⟩

@[simp] theorem get?_empty (name : String) : empty.get? name = none := by
  simp [empty, get?]

/-- A definition is seen under its own name and under no other. -/
theorem get?_define (s : Scope) (name other : String) (value : Rat) :
    (s.define name value).get? other = if name = other then some value else s.get? other := by
  simp [define, get?, Std.TreeMap.getElem?_insert]

/-- The bindings in the order of the names. -/
def toList (s : Scope) : List (String × Rat) := s.bindings.toList

/-- The number of bindings. -/
def size (s : Scope) : Nat := s.bindings.size

/-- Whether nothing is bound. -/
def isEmpty (s : Scope) : Bool := s.bindings.isEmpty

/-- The bindings of `s` that `old` does not have. -/
def changesFrom (s old : Scope) : List (String × Rat) :=
  s.toList.filter fun b => old.get? b.1 != some b.2

/-- The precision that a value stands for: its whole part, kept between zero and the largest
precision. -/
def precisionOf (value : Rat) : Nat :=
  min value.floor.toNat maxPrecision

/-- The value that an assignment to a name stores: a radix has to be one and a tolerance has to be
positive, and a precision is brought within its bounds. -/
def checked (name : String) (value : Rat) : Except Fault Rat :=
  if name = Setting.inputRadix.name || name = Setting.outputRadix.name then do
    let _ ← Radix.ofRat value
    return value
  else if name = Setting.epsilon.name then
    if 0 < value then .ok value else .error (.badSetting name value "doit être > 0")
  else if name = Setting.precision.name then .ok (precisionOf value)
  else .ok value

/-- The scope after an assignment, which binds names only, and to settings only what they may
be. -/
def assign (s : Scope) (name : String) (value : Rat) : Except Fault Scope :=
  if isName name then do return s.define name (← checked name value)
  else .error (.badName name)

/-- The working environment at the start: the two constants and the settings. -/
def initial : Scope :=
  empty
    |>.define "e" (Constant.euler Constant.defaultPlaces)
    |>.define "pi" (Constant.archimedes Constant.defaultPlaces)
    |>.define Setting.fraction.name 0
    |>.define Setting.precision.name 30
    |>.define Setting.inputRadix.name 10
    |>.define Setting.outputRadix.name 10

end Scope

/-- How lines are read and results are written. -/
structure Settings where
  precision : Nat
  inputRadix : Radix
  outputRadix : Radix
  asFraction : Bool
  epsilon : Option Rat
deriving DecidableEq

/-- The tolerance of roots: the one that is set, or else one unit in the last place of a result. -/
def Settings.tolerance (s : Settings) : Rat :=
  s.epsilon.getD (s.outputRadix.value ^ s.precision)⁻¹

namespace Scope

/-- The radix bound to a setting, ten if none is. -/
def radixAt (s : Scope) (setting : Setting) : Except Fault Radix :=
  match s.get? setting.name with
  | some value => Radix.ofRat value
  | none => .ok Radix.ten

/-- The settings that a scope holds. A value that is no radix is a fault, and a tolerance that is
not positive counts as not set. -/
def settings (s : Scope) : Except Fault Settings := do
  let inputRadix ← s.radixAt .inputRadix
  let outputRadix ← s.radixAt .outputRadix
  return {
    precision := ((s.get? Setting.precision.name).map precisionOf).getD 30
    inputRadix
    outputRadix
    asFraction := (s.get? Setting.fraction.name).any (· != 0)
    epsilon := (s.get? Setting.epsilon.name).filter (0 < ·) }

end Scope

end RadixCalc
