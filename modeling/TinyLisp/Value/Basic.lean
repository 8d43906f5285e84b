/-
Values.

Source text and results are made of the same values: an expression is a value
that is evaluated. Lists are immutable trees, and a closure refers to the
environment that it captured by its number in the store of environments.

* `Foreign`: values that no program can write; a host may bind them to names.
* `Value`: the values.
* `Value.isTruthy`: the truth of a condition.
-/
import TinyLisp.Binary64.Basic
import TinyLisp.Primitive.Basic

namespace TinyLisp

/-- Values that a host binds and no program can write. -/
inductive Foreign where
  /-- The absence of a value. -/
  | absent
  /-- A floating-point number. -/
  | number (x : Binary64)
  deriving DecidableEq

/-- Values, which are also the expressions of the language. -/
inductive Value where
  | nil
  | bool (b : Bool)
  | int (n : Int)
  /-- A string, by the text between its quotes as written, escapes included. -/
  | str (text : String)
  | sym (name : String)
  /-- A keyword, by its name with the leading colon. -/
  | kw (name : String)
  | list (items : List Value)
  | builtin (p : Primitive)
  /-- A function, with the number of the environment in which it was made. -/
  | closure (params : List String) (body : Value) (env : Nat)
  | foreign (f : Foreign)
  deriving Inhabited

namespace Value

/-- A condition fails on nil and on false only. -/
def isTruthy : Value → Bool
  | nil => false
  | bool b => b
  | _ => true

/-- Booleans are not integers. -/
def isInt : Value → Bool
  | int _ => true
  | _ => false

/-- The keyword of a name, which gains a leading colon when it has none. -/
def keyword (name : String) : Value :=
  kw (if name.toList.head? = some ':' then name else ":" ++ name)

end Value

end TinyLisp
