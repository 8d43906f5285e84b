/-
Applying a primitive.

A primitive looks at the number of its arguments first, at their types next and
at a zero divisor last. Arithmetic and comparison take two integers, and a
boolean is none; integers are unbounded, and division truncates toward zero.

* `Primitive.twoIntegers`: the two integers that a primitive is given.
* `Primitive.truncatedQuotient`, `Primitive.quotient`: division.
* `Primitive.apply`: the result of a primitive.
-/
import TinyLisp.Fault
import TinyLisp.Value.Equality

namespace TinyLisp.Primitive

/-- The arguments of a primitive that takes two integers. -/
def twoIntegers (p : Primitive) : List Value → Except Fault (Int × Int)
  | [.int a, .int b] => .ok (a, b)
  | [_, _] => .error (.primitiveType p)
  | args => .error (.primitiveArity p 2 args.length)

/-- The number of arguments is looked at before their types. -/
theorem twoIntegers_of_length_ne {p : Primitive} {args : List Value} (h : args.length ≠ 2) :
    p.twoIntegers args = .error (.primitiveArity p 2 args.length) := by
  unfold twoIntegers
  split
  · exact absurd rfl h
  · exact absurd rfl h
  · rfl

theorem twoIntegers_of_not_integers {p : Primitive} {u v : Value}
    (h : ¬ ∃ a b, u = .int a ∧ v = .int b) : p.twoIntegers [u, v] = .error (.primitiveType p) := by
  unfold twoIntegers
  split
  · next hargs =>
      obtain ⟨hu, hrest⟩ := List.cons.inj hargs
      exact absurd ⟨_, _, hu, (List.cons.inj hrest).1⟩ h
  · rfl
  · next hother => exact absurd rfl (hother u v)

/-- The argument of a primitive that takes one value of any type. -/
def oneValue (p : Primitive) : List Value → Except Fault Value
  | [v] => .ok v
  | args => .error (.primitiveArity p 1 args.length)

/-- The arguments of a primitive that takes two values of any type. -/
def twoValues (p : Primitive) : List Value → Except Fault (Value × Value)
  | [a, b] => .ok (a, b)
  | args => .error (.primitiveArity p 2 args.length)

/-- The quotient of two integers, truncated toward zero. The floor of their quotient is one less
where it is negative and the division is not exact. -/
def truncatedQuotient (a b : Int) : Int :=
  let q := a.fdiv b
  if q < 0 ∧ q * b ≠ a then q + 1 else q

/-- The quotient of two integers, unless the divisor is zero. -/
def quotient (a b : Int) : Except Fault Int :=
  if b = 0 then .error .divisionByZero else .ok (truncatedQuotient a b)

/-- The length of a list; any other value counts as one. -/
def countOf : Value → Nat
  | .list items => items.length
  | _ => 1

/-- Whether a value is a list. -/
def isListValue : Value → Bool
  | .list _ => true
  | _ => false

/-- Whether a value is the empty list. -/
def isEmptyList : Value → Bool
  | .list [] => true
  | _ => false

/-- The result of a primitive on evaluated arguments. -/
def apply (p : Primitive) (args : List Value) : Except Fault Value :=
  match p with
  | add => (twoIntegers add args).map fun (a, b) => .int (a + b)
  | sub => (twoIntegers sub args).map fun (a, b) => .int (a - b)
  | mul => (twoIntegers mul args).map fun (a, b) => .int (a * b)
  | div => (twoIntegers div args).bind fun (a, b) => (quotient a b).map .int
  | equal => (twoValues equal args).map fun (a, b) => .bool (a.equal b)
  | less => (twoIntegers less args).map fun (a, b) => .bool (a < b)
  | lessEqual => (twoIntegers lessEqual args).map fun (a, b) => .bool (a ≤ b)
  | greater => (twoIntegers greater args).map fun (a, b) => .bool (a > b)
  | greaterEqual => (twoIntegers greaterEqual args).map fun (a, b) => .bool (a ≥ b)
  | list => .ok (.list args)
  | isList => (oneValue isList args).map fun v => .bool (isListValue v)
  | isEmpty => (oneValue isEmpty args).map fun v => .bool (isEmptyList v)
  | count => (oneValue count args).map fun v => .int (countOf v)

end TinyLisp.Primitive
