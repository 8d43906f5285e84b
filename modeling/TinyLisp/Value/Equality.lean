/-
Two equalities of values.

The language compares plain data: nil, booleans, integers, strings and lists of
these, each with its own type only. The equality of the keys of a mapping extends
it: names and the absent value are keys too, and booleans and floating-point
numbers count as numbers; only functions and the undefined number are never the
same key.

* `Value.equal`: the equality of the language.
* `Quantity.same`: the equality of numbers of two kinds.
* `Value.sameKey`: the equality of the keys of a mapping.
* `Value.isSubstantial`: neither nil, false, zero nor empty.
-/
import TinyLisp.Value.Basic

namespace TinyLisp

/-! ### The equality of the language -/

namespace Value

mutual

/-- Whether two values are the same plain data. -/
def equal : Value → Value → Bool
  | nil, nil => true
  | bool a, bool b => a == b
  | int a, int b => a == b
  | str a, str b => a == b
  | list xs, list ys => equalItems xs ys
  | _, _ => false

/-- Whether two lists are the same plain data, item by item. -/
def equalItems : List Value → List Value → Bool
  | [], [] => true
  | x :: xs, y :: ys => equal x y && equalItems xs ys
  | _, _ => false

end

end Value

/-! ### The equality of keys -/

/-- A number as a key: exact, or of the binary format. -/
inductive Quantity where
  | exact (n : Int)
  | binary (x : Binary64)

/-- Whether two numbers are equal, with no rounding of either. -/
def Quantity.same : Quantity → Quantity → Bool
  | exact n, exact m => n == m
  | exact n, binary x => x.isInteger n
  | binary x, exact n => x.isInteger n
  | binary x, binary y => x.same y

namespace Value

/-- The number that a key counts as. -/
def quantity? : Value → Option Quantity
  | bool b => some (.exact (if b then 1 else 0))
  | int n => some (.exact n)
  | foreign (.number x) => some (.binary x)
  | _ => none

mutual

/-- Whether two values are the same key of a mapping. -/
def sameKey : Value → Value → Bool
  | nil, nil => true
  | str a, str b => a == b
  | sym a, sym b => a == b
  | kw a, kw b => a == b
  | list xs, list ys => sameKeys xs ys
  | foreign .absent, foreign .absent => true
  | a, b =>
    match quantity? a, quantity? b with
    | some p, some q => p.same q
    | _, _ => false

/-- Whether two lists are the same key, item by item. -/
def sameKeys : List Value → List Value → Bool
  | [], [] => true
  | x :: xs, y :: ys => sameKey x y && sameKeys xs ys
  | _, _ => false

end

/-- Whether a value is neither nil, false, zero nor empty; functions and names always are. -/
def isSubstantial : Value → Bool
  | nil => false
  | str text => !text.isEmpty
  | list items => !items.isEmpty
  | foreign .absent => false
  | v =>
    match quantity? v with
    | some q => !q.same (.exact 0)
    | none => true

end Value

end TinyLisp
