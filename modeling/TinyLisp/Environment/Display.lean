/-
The display of an environment.

An environment is shown with the diagnostic forms of its values, in the order of
first binding. The short display only marks that there is an outer environment;
the long one shows every environment outwards.

* `Store.display`, `Store.displayChain`: the short and the long display.
-/
import TinyLisp.Environment.Store
import TinyLisp.Value.Inspect

namespace TinyLisp.Store

/-- One binding as it is shown. -/
def displayEntry (entry : String × Value) : Except ShowFault String := do
  let shown ← entry.2.inspect
  return entry.1 ++ ": " ++ shown

/-- The bindings of one environment as they are shown. -/
def displayBindings (b : Bindings) : Except ShowFault String := do
  let entries ← b.mapM displayEntry
  return "\x7b" ++ ", ".intercalate entries ++ "\x7d"

/-- The short display of an environment. -/
def display (s : Store) (env : Nat) : Except ShowFault String := do
  let own ← displayBindings (s.bindings env)
  match s.outer? env with
  | some _ => return own ++ " -> ..."
  | none => return own

/-- The long display of an environment. -/
def displayChain (s : Store) (env : Nat) : Except ShowFault String := do
  let shown ← (s.chain env).mapM fun e => displayBindings (s.bindings e)
  return "<Environment chain: " ++ " -> ".intercalate shown ++ ">"

end TinyLisp.Store
