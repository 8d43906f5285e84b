/-
The values of single tokens.

An atom is a literal, an integer, a keyword or else a symbol, by its text alone.
A string token stands for the text between its quotes, which keeps its escapes
as they are written.

* `isNumeral`, `numeralValue`: the texts that are integers, and their values.
* `readAtom`: the value of an atom.
* `stringBody?`: the text of a string token that is closed.
-/
import TinyLisp.Fault

namespace TinyLisp

/-- The digits of a numeral, after its minus if it has one. -/
def numeralDigits : List Char → List Char
  | '-' :: digits => digits
  | digits => digits

/-- Whether a text is a numeral: an optional minus and one or more digits. -/
def isNumeral (s : List Char) : Bool :=
  !(numeralDigits s).isEmpty && (numeralDigits s).all Char.isDigit

/-- The integer that a numeral denotes. -/
def numeralValue : List Char → Int
  | '-' :: digits => -Nat.ofDigitChars 10 digits 0
  | digits => Nat.ofDigitChars 10 digits 0

/-- The value of an atom: a literal, an integer, a keyword or else a symbol. -/
def readAtom (token : String) : Except ReadFault Value :=
  if token = "nil" then .ok .nil
  else if token = "true" then .ok (.bool true)
  else if token = "false" then .ok (.bool false)
  else if isNumeral token.toList then
    let digits := (numeralDigits token.toList).length
    if digits ≤ Text.digitLimit then .ok (.int (numeralValue token.toList))
    else .error (.longNumeral digits)
  else if token.toList.head? = some ':' then .ok (.kw token)
  else .ok (.sym token)

/-- The text before a closing quote that no backslash escapes and that ends the text. -/
def closedBody? : List Char → Option (List Char)
  | [] => none
  | ['"'] => some []
  | '"' :: _ => none
  | '\\' :: c :: rest => (closedBody? rest).map ('\\' :: c :: ·)
  | c :: rest => (closedBody? rest).map (c :: ·)

/-- The text between the quotes of a string token that is closed. -/
def stringBody? (token : String) : Option String :=
  match token.toList with
  | '"' :: rest => (closedBody? rest).map String.ofList
  | _ => none

end TinyLisp
