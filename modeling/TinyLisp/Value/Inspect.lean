/-
The diagnostic form of a value.

Messages about a value of the wrong type, and the display of an environment,
show a value so that its type can be seen: names and strings are quoted, and
only functions are reduced to their name or parameters. Showing fails on an
integer over the digit limit only.

* `Value.inspectOnto`, `Value.inspectRestOnto`: writing the diagnostic form of a
  value, and of the further items of a list, behind a text.
* `Value.inspect`: the diagnostic form of a value.
-/
import TinyLisp.Value.Printer
import TinyLisp.Text.Quoted

namespace TinyLisp.Value

mutual

/-- Writes the diagnostic form of a value behind a text. -/
def inspectOnto (done : String) : Value → Except ShowFault String
  | nil => .ok (done ++ "nil")
  | bool true => .ok (done ++ "True")
  | bool false => .ok (done ++ "False")
  | int n => (integerChars n).map fun digits => done ++ String.ofList digits
  | str text => .ok (done ++ Text.quoted text)
  | sym name => .ok (done ++ "Symbol(" ++ Text.quoted name ++ ")")
  | kw name => .ok (done ++ "Keyword(" ++ Text.quoted name ++ ")")
  | list [] => .ok (done ++ "()")
  | list [v] => do
    let done ← inspectOnto (done ++ "(") v
    return done ++ ",)"
  | list (v :: w :: rest) => do
    let done ← inspectOnto (done ++ "(") v
    let done ← inspectRestOnto done (w :: rest)
    return done ++ ")"
  | builtin p => .ok (done ++ "<BuiltinFn " ++ p.name ++ ">")
  | closure params _ _ => .ok (done ++ "<Closure (" ++ " ".intercalate params ++ ")>")
  | foreign f => .ok (done ++ f.text)

/-- Writes the diagnostic forms of further items behind a text, each after a comma. -/
def inspectRestOnto (done : String) : List Value → Except ShowFault String
  | [] => .ok done
  | v :: rest => do
    let done ← inspectOnto (done ++ ", ") v
    inspectRestOnto done rest

end

/-- The diagnostic form of a value. -/
def inspect (v : Value) : Except ShowFault String :=
  inspectOnto "" v

end TinyLisp.Value
