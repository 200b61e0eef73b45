import RadixCalc.Numeral.Reader
import RadixCalc.Token

/-!
# Cutting a text into tokens

Blanks divide tokens and are left out. A comma divides arguments when the innermost parenthesis
still open is that of a call, and is a character of words elsewhere. A word in front of a
parenthesis, with or without blanks between, is a call when it names a function; any other word
that begins with a letter may not touch the parenthesis.

* `isWordChar`: the characters of words.
* `Token.ofWord`: the token of a word before the rest of the text.
* `Token.scan`: the tokens of a text.
-/

namespace RadixCalc

/-- A character of words: a letter, a numeric character, `_`, `$` or a separator. -/
def isWordChar (c : Char) : Bool :=
  isNameChar c || isSeparator c

/-- A character of words within a call, where a comma is none, or outside any. -/
def isWordCharIn (inCall : Bool) (c : Char) : Bool :=
  isWordChar c && !(inCall && c == ',')

namespace Token

/-- Whether a text begins with an opening parenthesis. -/
def opens (s : List Char) : Bool :=
  s.head? == some '('

/-- The token of the word `w` with `rest` behind it. The names of functions are ASCII and are read
in any case. -/
def ofWord (w rest : List Char) : Except Fault Token :=
  let name := String.ofList (w.map Char.toLower)
  if opens (rest.dropWhile Text.isBlank) && (arity? name).isSome then .ok (.call name)
  else if opens rest && w.head?.any Text.isLetter then
    .error (.unknownFunction (String.ofList w))
  else .ok (.word (String.ofList w))

/-- Whether the last of the tokens, written last one first, is the name of a function. -/
def endsInCall : List Token → Bool
  | call _ :: _ => true
  | _ => false

/-- The tokens of a text written behind `done`, which holds the tokens already cut, last one first;
`calls` tells of each parenthesis still open, innermost first, whether it is that of a call. -/
def scanOnto (done : List Token) (calls : List Bool) (s : List Char) :
    Except Fault (List Token) :=
  match s with
  | [] => .ok done.reverse
  | c :: rest =>
    let inCall := calls.head? == some true
    if Text.isBlank c then scanOnto done calls rest
    else if c = '(' then scanOnto (opening :: done) (endsInCall done :: calls) rest
    else if c = ')' then scanOnto (closing :: done) calls.tail rest
    else if c = ',' && inCall then scanOnto (comma :: done) calls rest
    else match Operator.ofChar? c with
      | some o => scanOnto (op o :: done) calls rest
      | none =>
        if isWordChar c then
          let after := rest.dropWhile (isWordCharIn inCall)
          match ofWord (c :: rest.takeWhile (isWordCharIn inCall)) after with
          | .ok t => scanOnto (t :: done) calls after
          | .error f => .error f
        else .error (.unexpectedChar c)
termination_by s.length
decreasing_by
  all_goals simp only [List.length_cons, Nat.lt_succ_iff, Nat.le_refl]
  exact (List.dropWhile_sublist _).length_le

/-- The tokens of a text. -/
def scan (text : String) : Except Fault (List Token) :=
  scanOnto [] [] text.toList

end Token

end RadixCalc
