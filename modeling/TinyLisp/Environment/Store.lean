/-
The store of environments.

Environments are numbered in the order of their creation. Each has its own
bindings and, but for a root, an outer environment created before it, so the way
outwards from an environment ends. A name means what the nearest environment on
that way binds it to; binding a name changes one environment only.

* `Frame`, `Store`: one environment, and all of them.
* `Store.chain`: the environments from one outwards, itself first.
* `Store.find?`, `Store.get?`: the nearest environment that binds a name, and
  the value there.
* `Store.create`, `Store.set`, `Store.bindArguments`, `Store.register`: a new
  environment, binding a name, binding parameters to arguments in a new
  environment, and binding the primitives.
* `frame?_create`, `frame?_set`, `chain_set`: what these change.
-/
import TinyLisp.Environment.Bindings
import TinyLisp.Fault

namespace TinyLisp

/-- One environment: its own bindings and the number of its outer environment. -/
structure Frame where
  bindings : Bindings
  outer : Option Nat

/-- All environments, by number. -/
structure Store where
  frames : Array Frame

namespace Store

/-- The store without environments. -/
def empty : Store := ⟨#[]⟩

/-- The number of environments. -/
def size (s : Store) : Nat := s.frames.size

/-- The environment of a number. -/
def frame? (s : Store) (env : Nat) : Option Frame := s.frames[env]?

/-- The bindings that an environment has of its own. -/
def bindings (s : Store) (env : Nat) : Bindings :=
  match s.frame? env with
  | some f => f.bindings
  | none => []

/-- The outer environment of an environment. -/
def outer? (s : Store) (env : Nat) : Option Nat :=
  (s.frame? env).bind (·.outer)

/-! ### Looking outwards -/

/-- The environments from `env` outwards, itself first. A link that does not lead to an earlier
environment leads nowhere. -/
def chain (s : Store) (env : Nat) : List Nat :=
  if env < s.size then
    env :: match s.outer? env with
      | some outer => if outer < env then chain s outer else []
      | none => []
  else []
termination_by env

/-- The nearest environment from `env` outwards that binds a name. -/
def find? (s : Store) (env : Nat) (name : String) : Option Nat :=
  (s.chain env).find? fun e => ((s.bindings e).get? name).isSome

/-- What a name means in `env`. -/
def get? (s : Store) (env : Nat) (name : String) : Option Value :=
  (s.find? env name).bind fun e => (s.bindings e).get? name

/-- Whether a name means anything in `env`. -/
def contains (s : Store) (env : Nat) (name : String) : Bool :=
  (s.find? env name).isSome

/-! ### Changing the store -/

/-- A new environment without bindings: its number, and the store with it. -/
def create (s : Store) (outer : Option Nat) : Nat × Store :=
  (s.size, ⟨s.frames.push ⟨[], outer⟩⟩)

/-- Binds a name in one environment. -/
def set (s : Store) (env : Nat) (name : String) (value : Value) : Store :=
  ⟨s.frames.modify env fun f => { f with bindings := f.bindings.set name value }⟩

/-- Binds names in one environment, in order. -/
def setAll (s : Store) (env : Nat) (entries : List (String × Value)) : Store :=
  entries.foldl (fun s (name, value) => s.set env name value) s

/-- A new environment inside `outer` with some bindings, made in order. -/
def createWith (s : Store) (outer : Nat) (entries : List (String × Value)) : Nat × Store :=
  let (env, s) := s.create (some outer)
  (env, s.setAll env entries)

/-- Binds parameters to as many arguments in a new environment inside `outer`. -/
def bindArguments (s : Store) (outer : Nat) (params : List String) (args : List Value) :
    Except Fault (Nat × Store) :=
  if params.length = args.length then .ok (s.createWith outer (params.zip args))
  else .error (.closureArity params.length args.length)

/-- Binds the primitives under their names, in the order of the table. -/
def register (s : Store) (env : Nat) : Store :=
  s.setAll env (Primitive.all.map fun p => (p.name, .builtin p))

/-! ### What the changes change -/

@[simp] theorem size_create (s : Store) (outer : Option Nat) :
    (s.create outer).2.size = s.size + 1 := Array.size_push _

@[simp] theorem size_set (s : Store) (env : Nat) (name : String) (value : Value) :
    (s.set env name value).size = s.size := Array.size_modify

/-- A new environment leaves the others as they were. -/
theorem frame?_create (s : Store) (outer : Option Nat) (env : Nat) :
    (s.create outer).2.frame? env = if env = s.size then some ⟨[], outer⟩ else s.frame? env := by
  rw [frame?, create, Array.getElem?_push]
  rfl

/-- Binding a name changes one environment. -/
theorem frame?_set (s : Store) (env other : Nat) (name : String) (value : Value) :
    (s.set env name value).frame? other =
      if env = other then
        (s.frame? env).map fun f => { f with bindings := f.bindings.set name value }
      else s.frame? other := by
  rw [frame?, set, Array.getElem?_modify]
  split
  · next h => rw [h, frame?]
  · rfl

/-- Binding a name moves no environment. -/
@[simp] theorem outer?_set (s : Store) (env other : Nat) (name : String) (value : Value) :
    (s.set env name value).outer? other = s.outer? other := by
  rw [outer?, outer?, frame?_set]
  split
  · next h => rw [h]; cases s.frame? other <;> rfl
  · rfl

/-- Binding a name keeps every way outwards. -/
@[simp] theorem chain_set (s : Store) (env other : Nat) (name : String) (value : Value) :
    (s.set env name value).chain other = s.chain other := by
  induction other using Nat.strongRecOn with
  | _ other ih =>
    rw [chain, chain, size_set, outer?_set]
    split
    · cases s.outer? other with
      | none => rfl
      | some outer =>
        by_cases h : outer < other
        · simp only [if_pos h, ih outer h]
        · simp only [if_neg h]
    · rfl

end Store

end TinyLisp
