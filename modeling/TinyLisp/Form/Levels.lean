/-
Levels of nesting of a text.

Reading goes down one level for each list that is open, and the host gives it
only so much room. What counts is how deep it goes before it ends or fails.

* `readLevels`: the levels of nesting that reading goes down.
-/
import TinyLisp.Form.Atom
import TinyLisp.Token.Basic

namespace TinyLisp

/-- The levels of nesting that reading goes down, from `depth` open lists on, before it ends or
fails. -/
def readLevels (depth : Nat) : List Token → Nat
  | [] => depth
  | t :: rest =>
    match t.kind with
    | .openParen => max depth (readLevels (depth + 1) rest)
    | .closeParen => if depth = 0 then 0 else max depth (readLevels (depth - 1) rest)
    | .string => if (stringBody? t.text).isSome then readLevels depth rest else depth
    | .atom | .other _ =>
      match readAtom t.text with
      | .ok _ => readLevels depth rest
      | .error _ => depth

end TinyLisp
