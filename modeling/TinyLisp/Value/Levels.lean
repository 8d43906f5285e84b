/-
Levels of nesting.

Showing and comparing go down one level of nesting at a time, and the host gives
them only so much room. What counts is how deep they go before they stop:
showing stops at the first part that it cannot write, comparing at the first
difference.

* `Value.levelsWhile`: the levels that a walk from the left goes down until it
  meets a part that stops it.
* `Value.printLevels`, `Value.inspectLevels`: the levels of printing, and of the
  diagnostic form.
* `Value.equalLevels`: the levels that comparing goes down, and whether the two
  values are equal.
-/
import TinyLisp.Value.Printer
import TinyLisp.Value.Equality

namespace TinyLisp.Value

/-! ### Showing -/

mutual

/-- The levels that a walk through a value goes down, and whether it reaches the end; a part that
is no list stops the walk unless it passes. -/
def levelsWhile (passes : Value → Bool) : Value → Nat × Bool
  | list items =>
    let (levels, finished) := itemLevelsWhile passes items
    (levels + 1, finished)
  | v => (0, passes v)

/-- The same over the items of a list. -/
def itemLevelsWhile (passes : Value → Bool) : List Value → Nat × Bool
  | [] => (0, true)
  | v :: rest =>
    match levelsWhile passes v with
    | (levels, false) => (levels, false)
    | (levels, true) =>
      let (others, finished) := itemLevelsWhile passes rest
      (max levels others, finished)

end

/-- Whether a value is no integer over the digit limit. -/
def isWithinDigits : Value → Bool
  | int n => (Text.decimal? n).isSome
  | _ => true

/-- The levels that printing a value goes down, and whether it reaches the end. -/
def printLevels (v : Value) : Nat × Bool :=
  v.levelsWhile fun
    | foreign _ => false
    | part => part.isWithinDigits

/-- The levels that the diagnostic form of a value goes down, and whether it reaches the end. -/
def inspectLevels (v : Value) : Nat × Bool :=
  v.levelsWhile isWithinDigits

/-! ### Comparing -/

mutual

/-- The levels that comparing two values goes down, and whether they are equal. Lists of different
lengths are told apart before any item is looked at. -/
def equalLevels : Value → Value → Nat × Bool
  | list xs, list ys =>
    if xs.length = ys.length then
      let (levels, same) := equalItemsLevels xs ys
      (levels + 1, same)
    else (1, false)
  | a, b => (0, equal a b)

/-- The same over the items of two lists. -/
def equalItemsLevels : List Value → List Value → Nat × Bool
  | x :: xs, y :: ys =>
    match equalLevels x y with
    | (levels, false) => (levels, false)
    | (levels, true) =>
      let (others, same) := equalItemsLevels xs ys
      (max levels others, same)
  | _, _ => (0, true)

end

end TinyLisp.Value
