/-
What an evaluation works on.

An evaluation reads and changes the store of environments, and it opens and
closes call frames, one for each closure body that is being evaluated. The depth
of open frames is bounded by the call-depth limit. The host in turn gives the
evaluation only so much room for its own nesting, or as much as it takes.

* `CallEvent`, `Machine`: what happened to the call frames, and the state.
* `EvalM`: computations that change a machine and may fail; a failure keeps the
  changes made before it.
* `inFrame`: one computation inside a call frame of its own.
* `Room`: the room that the host gives.
-/
import TinyLisp.CallGuard
import TinyLisp.Environment.Store
import TinyLisp.Value.Levels

namespace TinyLisp

/-- What happened to the call frames, with the depth just afterwards. -/
inductive CallEvent where
  | entered (depth : Nat)
  | refused (depth : Nat)
  | left (depth : Nat)
  deriving DecidableEq

/-- The state of an evaluation. -/
structure Machine where
  store : Store
  /-- The number of open call frames. -/
  depth : Nat
  /-- What happened to the call frames, the latest first. -/
  calls : List CallEvent

/-- A computation that changes a machine and may fail; a failure keeps the changes before it. -/
abbrev EvalM := EStateM Fault Machine

namespace EvalM

/-! ### Environments -/

/-- What a name means in an environment. -/
def lookup (env : Nat) (name : String) : EvalM Value := fun m =>
  match m.store.get? env name with
  | some v => .ok v m
  | none => .error (.unbound name) m

/-- Binds a name in an environment. -/
def define (env : Nat) (name : String) (value : Value) : EvalM Unit := fun m =>
  .ok () { m with store := m.store.set env name value }

/-- A new environment inside another one. -/
def newScope (outer : Nat) : EvalM Nat := fun m =>
  let (env, store) := m.store.create (some outer)
  .ok env { m with store }

/-- A new environment in which parameters are bound to arguments. -/
def bindArguments (outer : Nat) (params : List String) (args : List Value) : EvalM Nat := fun m =>
  if params.length = args.length then
    let (env, store) := m.store.createWith outer (params.zip args)
    .ok env { m with store }
  else .error (.closureArity params.length args.length) m

/-- Binding parameters succeeds as it does on the store, and a failure changes nothing. -/
theorem bindArguments_run (outer : Nat) (params : List String) (args : List Value) (m : Machine) :
    bindArguments outer params args m =
      match m.store.bindArguments outer params args with
      | .ok (env, store) => .ok env { m with store }
      | .error f => .error f m := by
  rw [bindArguments, Store.bindArguments]
  split <;> rfl

/-! ### Call frames -/

/-- A computation inside a call frame of its own, which the limit may refuse and which is closed
however the computation ends. -/
def inFrame {α : Type} (limit : Int) (body : EvalM α) : EvalM α := fun m =>
  match openFrame limit m.depth with
  | .error f => .error f { m with calls := .refused m.depth :: m.calls }
  | .ok depth =>
    match body { m with depth, calls := .entered depth :: m.calls } with
    | .ok a m => .ok a { m with depth := m.depth - 1, calls := .left (m.depth - 1) :: m.calls }
    | .error f m =>
      .error f { m with depth := m.depth - 1, calls := .left (m.depth - 1) :: m.calls }

end EvalM

/-! ### The room of the host -/

/-- The frames that the host still has for nested work, or no bound. -/
abbrev Room := Option Nat

namespace Room

/-- Whether some frames fit into the room. -/
def fits (room : Room) (frames : Nat) : Bool :=
  match room with
  | none => true
  | some left => frames ≤ left

/-- The room that is left inside some more frames. -/
def inside (room : Room) (frames : Nat) : EvalM Room :=
  if room.fits frames then pure (room.map (· - frames)) else throw .stackDepth

/-- A fault that takes some frames to word, or the lack of room for them; without a bound they are
not even counted. -/
def faultWithin (room : Room) (frames : Unit → Nat) (fault : Unit → Fault) : Fault :=
  match room with
  | none => fault ()
  | some left => if frames () ≤ left then fault () else .stackDepth

/-- Without a bound everything fits. -/
@[simp] theorem fits_none (frames : Nat) : fits none frames = true := rfl

/-- Without a bound there is always room. -/
@[simp] theorem inside_none (frames : Nat) : inside none frames = pure none := rfl

/-- Without a bound every fault is worded. -/
@[simp] theorem faultWithin_none (frames : Unit → Nat) (fault : Unit → Fault) :
    faultWithin none frames fault = fault () := rfl

end Room

end TinyLisp
