/-
Names given as values.

A host names bindings by values: a symbol, or a string of the same text, stands
for a name, and nothing else does. It binds many names at once by a mapping,
whose entries are bound in order until one key is no name.

* `Value.asName`: the name that a value stands for.
* `Store.bindNamedArguments`: binding parameters given as values.
* `Store.mapping`, `Store.update`: the mapping of some entries, and binding its
  names.
-/
import TinyLisp.Environment.Store
import TinyLisp.Value.Equality
import TinyLisp.Value.Inspect

namespace TinyLisp

/-- The name that a value stands for: a symbol or a string of that text. -/
def Value.asName : Value → Except Fault String
  | .sym name => .ok name
  | .str name => .ok name
  | v => .error (Fault.showing v.inspect .notAName)

namespace Store

/-- Binds parameters given as values to arguments in a new environment; the number of arguments is
looked at first. -/
def bindNamedArguments (s : Store) (outer : Nat) (params args : List Value) :
    Except Fault (Nat × Store) := do
  if params.length = args.length then
    let names ← params.mapM Value.asName
    s.bindArguments outer names args
  else .error (.closureArity params.length args.length)

/-- Binds names given as values until one is no name; the earlier ones stay bound. -/
def setNamed (s : Store) (env : Nat) : List (Value × Value) → Except Fault Unit × Store
  | [] => (.ok (), s)
  | (key, value) :: rest =>
    match key.asName with
    | .ok name => (s.set env name value).setNamed env rest
    | .error f => (.error f, s)

/-- Adds an entry to a mapping: a key that it has keeps its place and takes the new value. -/
def mergeEntry (key value : Value) : List (Value × Value) → List (Value × Value)
  | [] => [(key, value)]
  | (k, v) :: rest =>
    if k.sameKey key then (k, value) :: rest else (k, v) :: mergeEntry key value rest

/-- The mapping of some entries, in the order of their first keys. -/
def mapping (entries : List (Value × Value)) : List (Value × Value) :=
  entries.foldl (fun m (key, value) => mergeEntry key value m) []

/-- Binds the names of a mapping, in order, until a key is no name. -/
def update (s : Store) (env : Nat) (entries : List (Value × Value)) :
    Except Fault Unit × Store :=
  s.setNamed env (mapping entries)

end Store

end TinyLisp
