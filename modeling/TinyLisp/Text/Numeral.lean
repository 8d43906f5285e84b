/-
Integers as text.

Integers are unbounded, but those of more than `digitLimit` decimal digits are
neither written nor read. A setting accepts more spellings than the language
itself: a sign, the digits of any script, and single underscores between digits.

* `natural`: the decimal digits of a natural number.
* `decimal`, `decimalWithin?`, `decimal?`: the decimal digits of an integer, and
  the same within a limit.
* `groupedDigits?`, `signedNumeral?`: the spellings of a number in a setting.
-/
import TinyLisp.Text.DecimalDigit

namespace TinyLisp.Text

/-- The largest number of decimal digits that an integer has as text. -/
def digitLimit : Nat := 4300

/-- The decimal digits of a natural number, as a text. -/
def natural (n : Nat) : String :=
  String.ofList (Nat.toDigits 10 n)

/-- The decimal digits of an integer, after a `-` when it is negative. -/
def decimal : Int → List Char
  | .ofNat n => Nat.toDigits 10 n
  | .negSucc n => '-' :: Nat.toDigits 10 (n + 1)

/-- The decimal digits of an integer that has at most `limit` of them. -/
def decimalWithin? (limit : Nat) (n : Int) : Option (List Char) :=
  if n.natAbs < Nat.pow 10 limit then some (decimal n) else none

/-- The decimal digits of an integer within the limit that holds everywhere. -/
def decimal? (n : Int) : Option (List Char) :=
  decimalWithin? digitLimit n

/-- An integer is written exactly when it has at most so many digits. -/
theorem decimalWithin?_isSome_iff {limit : Nat} (hpos : 0 < limit) (n : Int) :
    (decimalWithin? limit n).isSome ↔ (Nat.toDigits 10 n.natAbs).length ≤ limit := by
  rw [Nat.length_toDigits_le_iff (by decide) hpos, decimalWithin?]
  by_cases h : n.natAbs < Nat.pow 10 limit
  · rw [if_pos h]
    exact iff_of_true rfl h
  · rw [if_neg h]
    exact iff_of_false Bool.false_ne_true h

/-- The values of a non-empty row of digits, with at most one underscore between neighbours. -/
def groupedDigits? : List Char → Option (List Nat)
  | [] => none
  | [c] => (digitValue? c).map ([·])
  | c :: '_' :: rest => do
    let d ← digitValue? c
    let ds ← groupedDigits? rest
    return d :: ds
  | c :: rest => do
    let d ← digitValue? c
    let ds ← groupedDigits? rest
    return d :: ds

/-- The number that a row of digit values denotes. -/
def ofDigitValues (ds : List Nat) : Nat :=
  ds.foldl (fun n d => 10 * n + d) 0

/-- The number written by a row of grouped digits within the limit. -/
def unsignedNumeral? (s : List Char) : Option Nat := do
  let ds ← groupedDigits? s
  guard (ds.length ≤ digitLimit)
  return ofDigitValues ds

/-- The integer written by an optional sign and a row of grouped digits. -/
def signedNumeral? : List Char → Option Int
  | '+' :: s => (unsignedNumeral? s).map (↑·)
  | '-' :: s => (unsignedNumeral? s).map (-↑·)
  | s => (unsignedNumeral? s).map (↑·)

end TinyLisp.Text
