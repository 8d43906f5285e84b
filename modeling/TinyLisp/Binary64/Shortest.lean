/-
The text of a floating-point number.

A number is written with the fewest decimal digits that are read as that number
again, and of several such rows of digits with the nearest. Magnitudes from
`10 ^ -4` up to `10 ^ 16` are written with a point among the digits, all others
with an exponent.

* `Binary64.shortest`: the decimal that is written for a magnitude.
* `Binary64.text`: the text of a number.
-/
import TinyLisp.Binary64.Basic

namespace TinyLisp.Binary64

/-! ### Digits

Decimals are counted in units of `10 ^ -places`, where every finite number is whole. -/

/-- The exact decimal of a count of steps. -/
def exactDecimal (count : Nat) : Nat :=
  count * Nat.pow 5 places

/-- Whether a decimal is read as a count of steps. -/
def readsAs (count decimal : Nat) : Bool :=
  nearestCount? decimal (Nat.pow 10 places) == some count

/-- The multiples of a unit on both sides of a decimal, the nearer one first; of two equally near
ones, the even one. -/
def neighbours (decimal unit : Nat) : List Nat :=
  let below := decimal / unit
  if roundedQuotient decimal unit = below then [below * unit, (below + 1) * unit]
  else [(below + 1) * unit, below * unit]

/-- The first of the decimals of a few digits that is read as a count of steps: the fewest digits
come first, and of two decimals of as many digits the nearer. -/
def firstRead? (count exact : Nat) : Option Nat :=
  let length := (Nat.toDigits 10 exact).length
  (List.range' 1 17).findSome? fun digits =>
    (neighbours exact (Nat.pow 10 (length - digits))).find? (readsAs count)

/-- The decimal of the fewest digits that is read as a count of steps, and of these the nearest.
Seventeen digits suffice. -/
def shortest (count : Nat) : Nat :=
  (firstRead? count (exactDecimal count)).getD (exactDecimal count)

/-! ### Layout -/

/-- A row of zeros. -/
def zeroDigits (n : Nat) : List Char :=
  List.replicate n '0'

/-- Digits with a point after the first `point` of them, filled with zeros on both sides so that a
digit stands before the point and one after it. -/
def positional (digits : List Char) (point : Int) : List Char :=
  let row := zeroDigits (1 - point).toNat ++ digits
  let before := max point.toNat 1
  let whole := row.take before ++ zeroDigits (before - row.length)
  match row.drop before with
  | [] => whole ++ ['.', '0']
  | rest => whole ++ '.' :: rest

/-- The exponent of ten, with its sign and at least two digits. -/
def exponentMark (exponent : Int) : List Char :=
  let digits := Nat.toDigits 10 exponent.natAbs
  'e' :: (if exponent < 0 then '-' else '+') :: zeroDigits (2 - digits.length) ++ digits

/-- Digits with a point after the first of several, and the exponent of the first digit. -/
def scientific (digits : List Char) (exponent : Int) : List Char :=
  match digits with
  | first :: second :: rest => first :: '.' :: second :: rest ++ exponentMark exponent
  | _ => digits ++ exponentMark exponent

/-- The text of a magnitude. -/
def magnitudeText (count : Nat) : List Char :=
  if count = 0 then "0.0".toList
  else
    let row := Nat.toDigits 10 (shortest count)
    let digits := (row.reverse.dropWhile (· == '0')).reverse
    let point := (row.length : Int) - places
    if -4 < point ∧ point ≤ 16 then positional digits point
    else scientific digits (point - 1)

/-- A text after a minus for negative numbers. -/
def signed (negative : Bool) (magnitude : List Char) : List Char :=
  if negative then '-' :: magnitude else magnitude

/-- The text of a number. -/
def text : Binary64 → String
  | finite negative count => String.ofList (signed negative (magnitudeText count))
  | infinite negative => String.ofList (signed negative "inf".toList)
  | undefined => "nan"

end TinyLisp.Binary64
