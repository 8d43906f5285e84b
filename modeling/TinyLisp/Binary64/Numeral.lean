/-
Reading a floating-point number.

A number is written by an optional sign and either a word or digits, with at
most one point next to a digit and an optional exponent of ten. Digits are those
of any script, with single underscores between them, and white space around the
whole is ignored.

* `Binary64.ofText?`: the number nearest to the one that a text writes.
-/
import TinyLisp.Binary64.Basic
import TinyLisp.Text.Blank
import TinyLisp.Text.Numeral

namespace TinyLisp.Binary64

/-- Whether a text has a minus, and the text after its sign. -/
def splitSign : List Char → Bool × List Char
  | '-' :: s => (true, s)
  | '+' :: s => (false, s)
  | s => (false, s)

/-- The digit values on both sides of a point that may be missing, and the number of those after
it. -/
def pointedDigits? (s : List Char) : Option (List Nat × Nat) :=
  let whole := s.takeWhile (· != '.')
  match s.dropWhile (· != '.') with
  | [] | ['.'] => (Text.groupedDigits? whole).map (·, 0)
  | _ :: fraction => do
    let after ← Text.groupedDigits? fraction
    let before ← if whole.isEmpty then some [] else Text.groupedDigits? whole
    return (before ++ after, after.length)

/-- The exponent that follows the digits: none, or its mark, an optional sign and digits. -/
def exponent? : List Char → Option Int
  | [] => some 0
  | _ :: s => do
    let (negative, digits) := splitSign s
    let size := Text.ofDigitValues (← Text.groupedDigits? digits)
    return if negative then -(size : Int) else size

/-- The number written by digits with an optional point and an optional exponent. -/
def unsignedDecimal? (negative : Bool) (s : List Char) : Option Binary64 := do
  let isMark (c : Char) : Bool := c == 'e' || c == 'E'
  let (digits, after) ← pointedDigits? (s.takeWhile (!isMark ·))
  let exponent ← exponent? (s.dropWhile (!isMark ·))
  return ofDecimal negative (Text.ofDigitValues digits) (exponent - after)

/-- The number nearest to the one that a text writes. -/
def ofText? (text : String) : Option Binary64 :=
  let (negative, body) := splitSign (Text.strip text.toList)
  let word := String.ofList (body.map Char.toLower)
  if word = "inf" ∨ word = "infinity" then some (infinite negative)
  else if word = "nan" then some undefined
  else unsignedDecimal? negative body

end TinyLisp.Binary64
