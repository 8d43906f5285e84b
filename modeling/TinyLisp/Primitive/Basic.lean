/-
The primitive functions.

* `Primitive`: the thirteen primitive functions.
* `Primitive.name`, `Primitive.ofName?`: their names, which tell them apart.
* `Primitive.all`: all of them, in the order in which they are defined.
-/
namespace TinyLisp

/-- The primitive functions. -/
inductive Primitive where
  | add | sub | mul | div
  | equal | less | lessEqual | greater | greaterEqual
  | list | isList | isEmpty | count
  deriving DecidableEq

namespace Primitive

/-- The name under which a primitive is defined. -/
def name : Primitive → String
  | add => "+"
  | sub => "-"
  | mul => "*"
  | div => "/"
  | equal => "="
  | less => "<"
  | lessEqual => "<="
  | greater => ">"
  | greaterEqual => ">="
  | list => "list"
  | isList => "list?"
  | isEmpty => "empty?"
  | count => "count"

/-- All primitives, in the order of their definition. -/
def all : List Primitive :=
  [add, sub, mul, div, equal, less, lessEqual, greater, greaterEqual, list, isList, isEmpty, count]

/-- No primitive is missing from the table. -/
theorem mem_all (p : Primitive) : p ∈ all := by
  cases p <;> decide

/-- Different primitives have different names. -/
theorem name_injective {p q : Primitive} (h : p.name = q.name) : p = q := by
  revert h; cases p <;> cases q <;> decide

/-- The primitive of a name. -/
def ofName? (name : String) : Option Primitive :=
  all.find? (·.name == name)

end Primitive

end TinyLisp
