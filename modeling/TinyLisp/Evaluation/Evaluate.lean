/-
Evaluation.

A symbol means what its environment binds it to, a special form follows its own
rule, any other list applies its first item to the others, and everything else
is its own value. Evaluation goes down the expression, and each call of a
closure jumps to the body of the closure; the limit on call frames bounds how
often that can nest, so evaluation always ends.

* `applyWith`, `evalWith`: application and evaluation, given how the body of a
  closure is evaluated.
* `evaluate`: evaluation with a budget of call frames for nested calls.
* `runIn`, `applyIn`: evaluation and application with the budget that the limit
  leaves.
-/
import TinyLisp.Evaluation.Machine
import TinyLisp.Evaluation.SpecialForm
import TinyLisp.Primitive.Apply

namespace TinyLisp

open EvalM

/-- How the body of a closure is evaluated in the environment of a call. -/
abbrev BodyEvaluator := Room → Nat → Value → EvalM Value

/-- Fails when the host has no room for so many more frames; without a bound they are not even
counted. -/
def needRoom (room : Room) (frames : Unit → Nat) : EvalM Unit :=
  match room with
  | none => pure ()
  | some _ => discard (room.inside (frames ()))

/-- The host has room for what a primitive does with its arguments: comparing takes three frames a
level, all else none. -/
def roomForPrimitive (room : Room) : Primitive → List Value → EvalM Unit
  | .equal, [a, b] => needRoom room fun _ => 2 + 3 * (a.equalLevels b).1
  | _, _ => pure ()

/-- The fault of applying a value that is no function, which the fault shows; printing takes two
frames a level. -/
def Room.notCallable (room : Room) (v : Value) : Fault :=
  room.faultWithin (fun _ => 1 + 2 * v.printLevels.1) fun _ => Fault.showing v.print .notCallable

/-- Applies a value to evaluated arguments. -/
def applyWith (evalBody : BodyEvaluator) (limit : Int) (room : Room) (f : Value)
    (args : List Value) : EvalM Value :=
  match f with
  | .builtin p => do
    roomForPrimitive room p args
    ofExcept (p.apply args)
  | .closure params body env => do
    let scope ← bindArguments env params args
    inFrame limit do
      let room ← room.inside 2
      evalBody room scope body
  | v => throw (room.notCallable v)

mutual

/-- Evaluates an expression in an environment. -/
def evalWith (evalBody : BodyEvaluator) (limit : Int) (room : Room) (env : Nat) :
    Value → EvalM Value
  | .sym name => do
    let _ ← room.inside 1
    lookup env name
  | .list [] => do
    let _ ← room.inside 1
    return .list []
  | .list (head :: tail) => do
    let room ← room.inside 1
    match SpecialForm.ofHead? head with
    | some form => do
      let room ← room.inside 1
      match form with
      | .define => evalDefine evalBody limit room env tail
      | .letIn => evalLet evalBody limit room env tail
      | .sequence => do
        let values ← evalEach evalBody limit room env tail
        return values.getLastD .nil
      | .choose => evalChoose evalBody limit room env tail
      | .function => ofExcept (closureOf room env tail)
    | none => do
      let f ← evalWith evalBody limit room env head
      let inner ← room.inside 1
      let args ← evalEach evalBody limit inner env tail
      applyWith evalBody limit room f args
  | v => do
    let _ ← room.inside 1
    return v

/-- Evaluates expressions in order. -/
def evalEach (evalBody : BodyEvaluator) (limit : Int) (room : Room) (env : Nat) :
    List Value → EvalM (List Value)
  | [] => return []
  | e :: rest => do
    let v ← evalWith evalBody limit room env e
    let vs ← evalEach evalBody limit room env rest
    return v :: vs

/-- Evaluates a definition: the value of an expression is bound in the environment itself. -/
def evalDefine (evalBody : BodyEvaluator) (limit : Int) (room : Room) (env : Nat) :
    List Value → EvalM Value
  | [.sym name, e] => do
    let v ← evalWith evalBody limit room env e
    define env name v
    return v
  | [v, _] => throw (room.formFault v .defineName)
  | _ => throw (.form .defineArity)

/-- Evaluates a scope: bindings in a new environment, then a body in it. -/
def evalLet (evalBody : BodyEvaluator) (limit : Int) (room : Room) (env : Nat) :
    List Value → EvalM Value
  | [.list bindings, body] =>
    if bindings.length % 2 = 0 then do
      let scope ← newScope env
      evalBindings evalBody limit room scope bindings
      evalWith evalBody limit room scope body
    else throw (.form .letPairs)
  | [v, _] => throw (room.formFault v .letBindings)
  | _ => throw (.form .letArity)

/-- Evaluates the bindings of a scope in order, each in the scope so far. -/
def evalBindings (evalBody : BodyEvaluator) (limit : Int) (room : Room) (scope : Nat) :
    List Value → EvalM Unit
  | .sym name :: e :: rest => do
    let v ← evalWith evalBody limit room scope e
    define scope name v
    evalBindings evalBody limit room scope rest
  | v :: _ :: _ => throw (room.formFault v .letName)
  | _ => return ()

/-- Evaluates a condition and the branch that it chooses. -/
def evalChoose (evalBody : BodyEvaluator) (limit : Int) (room : Room) (env : Nat) :
    List Value → EvalM Value
  | [condition, consequent] => do
    let c ← evalWith evalBody limit room env condition
    if c.isTruthy then evalWith evalBody limit room env consequent else return .nil
  | [condition, consequent, alternative] => do
    let c ← evalWith evalBody limit room env condition
    if c.isTruthy then evalWith evalBody limit room env consequent
    else evalWith evalBody limit room env alternative
  | _ => throw (.form .ifArity)

end

/-- Evaluates an expression with a budget of call frames for nested calls. -/
def evaluate (limit : Int) : Nat → BodyEvaluator
  | 0 => evalWith (fun _ _ _ => throw (depthFault limit)) limit
  | budget + 1 => evalWith (evaluate limit budget) limit

/-- The number of call frames that the limit leaves at a depth. -/
def budgetAt (limit : Int) (depth : Nat) : Nat :=
  (limit - depth).toNat

/-- Evaluates an expression under a limit on call frames. -/
def runIn (limit : Int) (room : Room) (env : Nat) (e : Value) : EvalM Value := fun m =>
  evaluate limit (budgetAt limit m.depth) room env e m

/-- Applies a value to evaluated arguments under a limit on call frames. -/
def applyIn (limit : Int) (room : Room) (f : Value) (args : List Value) : EvalM Value :=
  applyWith (runIn limit) limit room f args

end TinyLisp
