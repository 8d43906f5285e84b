/-
Binary floating-point numbers.

The finite numbers of the 64-bit binary format are counts of one step,
`2 ^ -1074`: those counts that have at most 53 significant bits and stay below
`2 ^ 1024`. Rounding is therefore a matter of whole numbers: a quotient becomes
the nearest count, and of two equally near ones the even one. Beside the finite
numbers stand two infinities and a number that is undefined.

* `Binary64`: the numbers, with a sign on zero too.
* `Binary64.nearestCount?`: the count nearest to a quotient, if there is one.
* `Binary64.ofDecimal`: the number nearest to a decimal one.
* `Binary64.same`, `Binary64.isInteger`: the equality of numbers, and equality
  to an integer.
-/
namespace TinyLisp

/-- A number of the 64-bit binary format. -/
inductive Binary64 where
  /-- A finite number, by its sign and its magnitude as a count of steps. -/
  | finite (negative : Bool) (count : Nat)
  /-- A magnitude beyond every finite one. -/
  | infinite (negative : Bool)
  /-- The outcome of a computation that has none. -/
  | undefined
  deriving DecidableEq

namespace Binary64

/-- The step is `2 ^ -places`, which has just as many decimal places. -/
def places : Nat := 1074

/-! ### Rounding -/

/-- The whole number nearest to a quotient; a half goes to the even neighbour. -/
def roundedQuotient (num den : Nat) : Nat :=
  let whole := num / den
  let twice := 2 * (num % den)
  if twice < den || (twice == den && whole % 2 == 0) then whole else whole + 1

/-- The distance between neighbouring numbers of 53 significant bits, at some count. -/
def spacing (count : Nat) : Nat :=
  1 <<< (count.log2 - 52)

/-- The count nearest to a quotient, unless that is beyond all finite numbers. -/
def nearestCount? (num den : Nat) : Option Nat :=
  let scaled := num <<< places
  let gap := spacing (scaled / den)
  let count := roundedQuotient scaled (den * gap) * gap
  if count < 1 <<< (places + 1024) then some count else none

/-- The number nearest to a quotient, with a sign. -/
def nearest (negative : Bool) (num den : Nat) : Binary64 :=
  match nearestCount? num den with
  | some count => finite negative count
  | none => infinite negative

/-- The number nearest to `± m * 10 ^ exponent`. A magnitude of at least `10 ^ 309` is beyond all
finite numbers, and one below `10 ^ -323` is less than half a step. -/
def ofDecimal (negative : Bool) (m : Nat) (exponent : Int) : Binary64 :=
  let order := (Nat.toDigits 10 m).length + exponent
  if m = 0 ∨ order < -323 then finite negative 0
  else if 309 < order then infinite negative
  else
    match exponent with
    | .ofNat k => nearest negative (m * Nat.pow 10 k) 1
    | .negSucc k => nearest negative m (Nat.pow 10 (k + 1))

/-! ### Equality -/

/-- Whether two numbers are equal: zeros whatever their sign, and the undefined number never. -/
def same : Binary64 → Binary64 → Bool
  | finite n a, finite m b => a == b && (n == m || a == 0)
  | infinite n, infinite m => n == m
  | _, _ => false

/-- Whether a number is an integer, with no rounding of the integer. -/
def isInteger (n : Int) : Binary64 → Bool
  | finite negative count =>
    count == n.natAbs <<< places && (negative == decide (n < 0) || count == 0)
  | _ => false

end Binary64

end TinyLisp
