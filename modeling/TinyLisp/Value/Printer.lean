/-
The printed form of a value.

Printing writes a value the way the reader reads it back. A string holds its
text as written, so it only needs its quotes; a function has a tag in place of a
text. Printing fails on an integer over the digit limit and on a foreign value,
with the first such part from the left.

* `Value.printChars`, `Value.printItems`: the printed form of a value, and of
  the items of a list with one blank between neighbours.
* `Value.print`: the printed form as a text, written from left to right.
* `Value.print_eq`: it has the characters of the printed form.
-/
import TinyLisp.Fault
import TinyLisp.Binary64.Shortest

namespace TinyLisp

/-- The text of a foreign value. -/
def Foreign.text : Foreign → String
  | absent => "None"
  | number x => x.text

namespace Value

/-- The digits of an integer, or the fault that it has too many. -/
def integerChars (n : Int) : Except ShowFault (List Char) :=
  match Text.decimal? n with
  | some digits => .ok digits
  | none => .error .longInteger

mutual

/-- The printed form of a value. -/
def printChars : Value → Except ShowFault (List Char)
  | nil => .ok "nil".toList
  | bool true => .ok "true".toList
  | bool false => .ok "false".toList
  | int n => integerChars n
  | str text => .ok ('"' :: text.toList ++ ['"'])
  | sym name => .ok name.toList
  | kw name => .ok name.toList
  | list items => do
    let inner ← printItems items
    return '(' :: inner ++ [')']
  | builtin _ => .ok "<std:fn>".toList
  | closure _ _ _ => .ok "<user:fn>".toList
  | foreign f => .error (.foreign f.text)

/-- The printed forms of the items of a list, with one blank between neighbours. -/
def printItems : List Value → Except ShowFault (List Char)
  | [] => .ok []
  | [v] => printChars v
  | v :: w :: rest => do
    let first ← printChars v
    let others ← printItems (w :: rest)
    return first ++ ' ' :: others

end

mutual

/-- Writes the printed form of a value behind a text. -/
def printOnto (done : String) : Value → Except ShowFault String
  | list items => do
    let done ← printItemsOnto (done.push '(') items
    return done.push ')'
  | v => do
    let chars ← printChars v
    return done ++ String.ofList chars

/-- Writes the printed forms of the items of a list behind a text, with one blank between
neighbours. -/
def printItemsOnto (done : String) : List Value → Except ShowFault String
  | [] => .ok done
  | [v] => printOnto done v
  | v :: w :: rest => do
    let done ← printOnto done v
    printItemsOnto (done.push ' ') (w :: rest)

end

/-- The printed form of a value, as a text. -/
def print (v : Value) : Except ShowFault String :=
  printOnto "" v

mutual

/-- Writing behind a text appends the printed form. -/
theorem printOnto_eq (done : String) (v : Value) :
    printOnto done v = (printChars v).map fun chars => done ++ String.ofList chars := by
  match v with
  | list items =>
    rw [printOnto, printItemsOnto_eq, printChars]
    cases printItems items with
    | error f => rfl
    | ok inner =>
      refine congrArg Except.ok (String.toList_inj.mp ?_)
      simp
  | nil | bool _ | int _ | str _ | sym _ | kw _ | builtin _ | closure _ _ _ | foreign _ =>
    unfold printOnto
    cases printChars _ <;> rfl

/-- Writing items behind a text appends their printed forms. -/
theorem printItemsOnto_eq (done : String) (items : List Value) :
    printItemsOnto done items =
      (printItems items).map fun chars => done ++ String.ofList chars := by
  match items with
  | [] => simp [printItemsOnto, printItems, Except.map]
  | [v] => rw [printItemsOnto, printOnto_eq, printItems]
  | v :: w :: rest =>
    rw [printItemsOnto, printOnto_eq, printItems]
    cases printChars v with
    | error f => rfl
    | ok first =>
      change printItemsOnto _ (w :: rest) = _
      rw [printItemsOnto_eq]
      cases printItems (w :: rest) with
      | error f => rfl
      | ok others =>
        refine congrArg Except.ok (String.toList_inj.mp ?_)
        simp

end

/-- The printed form as a text has the characters of the printed form. -/
theorem print_eq (v : Value) : v.print = (printChars v).map String.ofList := by
  rw [print, printOnto_eq]
  cases printChars v with
  | error f => rfl
  | ok chars => exact congrArg Except.ok (String.toList_inj.mp (by simp))

end Value

end TinyLisp
