/-
The rules of evaluation.

Evaluation as a relation, with no budget in sight: a job (an expression, the
parts of a special form, expressions in order, the bindings of a scope, or an
application) started on a machine ends with an outcome. A derivation is a finite
run, so a job that would run for ever has no outcome at all.

* `Outcome`: a value or a fault, with the machine afterwards.
* `Job`: what can be evaluated.
* `SpecialForm.immediate?`: the result of a form that evaluates none of its
  parts, because it is a function form or because its shape is wrong.
* `Evaluates`: the rules. One relation over all jobs serves every property of
  runs, since it is proved by one induction.
* `Evaluates.depth_eq`: the call frames that a run opens are closed again when it
  ends, with a value or with a fault.
-/
import Mathlib.Tactic
import TinyLisp.Evaluation.Evaluate

namespace TinyLisp

/-! ### Outcomes -/

/-- How a run ends: with a value or a fault, and the machine afterwards. -/
abbrev Outcome := EStateM.Result Fault Machine Value

namespace Outcome

/-- The machine after a run. -/
def machine : Outcome → Machine
  | .ok _ m => m
  | .error _ m => m

/-- The value or the fault of a run. -/
def result : Outcome → Except Fault Value
  | .ok v _ => .ok v
  | .error f _ => .error f

/-- A result that leaves the machine as it is. -/
def ofResult (result : Except Fault Value) (m : Machine) : Outcome :=
  match result with
  | .ok v => .ok v m
  | .error f => .error f m

@[simp] lemma machine_ok (v : Value) (m : Machine) : machine (.ok v m) = m := rfl

@[simp] lemma machine_error (f : Fault) (m : Machine) : machine (.error f m) = m := rfl

@[simp] lemma result_ok (v : Value) (m : Machine) : result (.ok v m) = .ok v := rfl

@[simp] lemma result_error (f : Fault) (m : Machine) : result (.error f m) = .error f := rfl

@[simp] lemma machine_ofResult (x : Except Fault Value) (m : Machine) :
    machine (ofResult x m) = m := by
  cases x <;> rfl

@[simp] lemma result_ofResult (x : Except Fault Value) (m : Machine) :
    result (ofResult x m) = x := by
  cases x <;> rfl

end Outcome

/-! ### The moves of a machine -/

namespace Machine

/-- The machine after a name was bound in an environment. -/
def bind (m : Machine) (env : Nat) (name : String) (v : Value) : Machine :=
  { m with store := m.store.set env name v }

/-- The machine after a new scope inside an environment; its number is the old size. -/
def pushScope (m : Machine) (env : Nat) : Machine :=
  { m with store := (m.store.create (some env)).2 }

/-- The machine after parameters were bound to arguments in a new scope. -/
def pushArguments (m : Machine) (env : Nat) (params : List String) (args : List Value) :
    Machine :=
  { m with store := (m.store.createWith env (params.zip args)).2 }

/-- The machine after a call was refused. -/
def refuse (m : Machine) : Machine :=
  { m with calls := .refused m.depth :: m.calls }

/-- The machine inside a new call frame. -/
def enter (m : Machine) : Machine :=
  { m with depth := m.depth + 1, calls := .entered (m.depth + 1) :: m.calls }

/-- The machine after the newest call frame was closed. -/
def leave (m : Machine) : Machine :=
  { m with depth := m.depth - 1, calls := .left (m.depth - 1) :: m.calls }

end Machine

/-! ### Jobs -/

/-- The room that is left inside some more frames. -/
def Room.less (room : Room) (frames : Nat) : Room :=
  room.map (· - frames)

/-- What can be evaluated. -/
inductive Job where
  /-- An expression in an environment. -/
  | expr (room : Room) (env : Nat) (e : Value)
  /-- A special form by its parts. -/
  | form (room : Room) (env : Nat) (form : SpecialForm) (parts : List Value)
  /-- Expressions in order; the value is the list of their values. -/
  | each (room : Room) (env : Nat) (es : List Value)
  /-- The bindings of a scope that are left, and then its body. -/
  | scope (room : Room) (env : Nat) (bindings : List Value) (body : Value)
  /-- A value applied to evaluated arguments. -/
  | apply (room : Room) (f : Value) (args : List Value)

/-- The room that a job is given. -/
def Job.room : Job → Room
  | .expr room _ _ => room
  | .form room _ _ _ => room
  | .each room _ _ => room
  | .scope room _ _ _ => room
  | .apply room _ _ => room

/-- Whether an expression is its own value. -/
def Value.isConstant : Value → Bool
  | sym _ => false
  | list (_ :: _) => false
  | _ => true

/-- Whether a value can be applied. -/
def Value.isFunction : Value → Bool
  | builtin _ => true
  | closure _ _ _ => true
  | _ => false

/-- The result of a form that evaluates none of its parts. -/
def SpecialForm.immediate? (room : Room) (env : Nat) :
    SpecialForm → List Value → Option (Except Fault Value)
  | define, [.sym _, _] => none
  | define, [v, _] => some (.error (room.formFault v .defineName))
  | define, _ => some (.error (.form .defineArity))
  | letIn, [.list bindings, _] =>
    if bindings.length % 2 = 0 then none else some (.error (.form .letPairs))
  | letIn, [v, _] => some (.error (room.formFault v .letBindings))
  | letIn, _ => some (.error (.form .letArity))
  | sequence, _ => none
  | choose, [_, _] => none
  | choose, [_, _, _] => none
  | choose, _ => some (.error (.form .ifArity))
  | function, parts => some (closureOf room env parts)

namespace SpecialForm

lemma parts_of_define {room : Room} {env : ℕ} {parts : List Value}
    (h : define.immediate? room env parts = none) : ∃ name e, parts = [.sym name, e] := by
  unfold immediate? at h
  split at h <;> simp_all

lemma parts_of_letIn {room : Room} {env : ℕ} {parts : List Value}
    (h : letIn.immediate? room env parts = none) :
    ∃ bindings body, parts = [.list bindings, body] ∧ bindings.length % 2 = 0 := by
  unfold immediate? at h
  split at h <;> simp_all

lemma parts_of_choose {room : Room} {env : ℕ} {parts : List Value}
    (h : choose.immediate? room env parts = none) :
    ∃ condition branches, parts = condition :: branches ∧
      (branches.length = 1 ∨ branches.length = 2) := by
  unfold immediate? at h
  split at h <;> simp_all

lemma immediate?_function_ne_none (room : Room) (env : ℕ) (parts : List Value) :
    function.immediate? room env parts ≠ none := by
  simp [immediate?]

end SpecialForm

/-- The branch that a condition chooses, if there is one. -/
def chosen? (condition : Value) : List Value → Option Value
  | consequent :: rest => if condition.isTruthy then some consequent else rest.head?
  | [] => none

/-! ### The rules -/

/-- The rules of evaluation under a limit on call frames. -/
inductive Evaluates (limit : Int) : Job → Machine → Outcome → Prop where
  | tooDeep {room env e m} (hroom : room.fits 1 = false) :
    Evaluates limit (.expr room env e) m (.error .stackDepth m)
  | bound {room env name v m} (hroom : room.fits 1 = true) (hv : m.store.get? env name = some v) :
    Evaluates limit (.expr room env (.sym name)) m (.ok v m)
  | unbound {room env name m} (hroom : room.fits 1 = true) (hv : m.store.get? env name = none) :
    Evaluates limit (.expr room env (.sym name)) m (.error (.unbound name) m)
  | constant {room env e m} (hroom : room.fits 1 = true) (he : e.isConstant = true) :
    Evaluates limit (.expr room env e) m (.ok e m)
  | formTooDeep {room env head tail form m} (hroom : room.fits 1 = true)
      (hform : SpecialForm.ofHead? head = some form) (hinner : (room.less 1).fits 1 = false) :
    Evaluates limit (.expr room env (.list (head :: tail))) m (.error .stackDepth m)
  | special {room env head tail form m r} (hroom : room.fits 1 = true)
      (hform : SpecialForm.ofHead? head = some form) (hinner : (room.less 1).fits 1 = true)
      (hparts : Evaluates limit (.form ((room.less 1).less 1) env form tail) m r) :
    Evaluates limit (.expr room env (.list (head :: tail))) m r
  | headFault {room env head tail m f m₁} (hroom : room.fits 1 = true)
      (hform : SpecialForm.ofHead? head = none)
      (hhead : Evaluates limit (.expr (room.less 1) env head) m (.error f m₁)) :
    Evaluates limit (.expr room env (.list (head :: tail))) m (.error f m₁)
  | argumentsTooDeep {room env head tail m f m₁} (hroom : room.fits 1 = true)
      (hform : SpecialForm.ofHead? head = none)
      (hhead : Evaluates limit (.expr (room.less 1) env head) m (.ok f m₁))
      (hinner : (room.less 1).fits 1 = false) :
    Evaluates limit (.expr room env (.list (head :: tail))) m (.error .stackDepth m₁)
  | argumentsFault {room env head tail m f m₁ g m₂} (hroom : room.fits 1 = true)
      (hform : SpecialForm.ofHead? head = none)
      (hhead : Evaluates limit (.expr (room.less 1) env head) m (.ok f m₁))
      (hinner : (room.less 1).fits 1 = true)
      (hargs : Evaluates limit (.each ((room.less 1).less 1) env tail) m₁ (.error g m₂)) :
    Evaluates limit (.expr room env (.list (head :: tail))) m (.error g m₂)
  | application {room env head tail m f m₁ args m₂ r} (hroom : room.fits 1 = true)
      (hform : SpecialForm.ofHead? head = none)
      (hhead : Evaluates limit (.expr (room.less 1) env head) m (.ok f m₁))
      (hinner : (room.less 1).fits 1 = true)
      (hargs : Evaluates limit (.each ((room.less 1).less 1) env tail) m₁ (.ok (.list args) m₂))
      (happly : Evaluates limit (.apply (room.less 1) f args) m₂ r) :
    Evaluates limit (.expr room env (.list (head :: tail))) m r
  | immediate {room env form parts result m} (h : form.immediate? room env parts = some result) :
    Evaluates limit (.form room env form parts) m (.ofResult result m)
  | define {room env name e m v m₁} (hvalue : Evaluates limit (.expr room env e) m (.ok v m₁)) :
    Evaluates limit (.form room env .define [.sym name, e]) m (.ok v (m₁.bind env name v))
  | defineFault {room env name e m f m₁}
      (hvalue : Evaluates limit (.expr room env e) m (.error f m₁)) :
    Evaluates limit (.form room env .define [.sym name, e]) m (.error f m₁)
  | letIn {room env bindings body m r} (heven : bindings.length % 2 = 0)
      (hscope : Evaluates limit (.scope room m.store.size bindings body) (m.pushScope env) r) :
    Evaluates limit (.form room env .letIn [.list bindings, body]) m r
  | sequence {room env parts m vs m₁}
      (heach : Evaluates limit (.each room env parts) m (.ok (.list vs) m₁)) :
    Evaluates limit (.form room env .sequence parts) m (.ok (vs.getLastD .nil) m₁)
  | sequenceFault {room env parts m f m₁}
      (heach : Evaluates limit (.each room env parts) m (.error f m₁)) :
    Evaluates limit (.form room env .sequence parts) m (.error f m₁)
  | conditionFault {room env condition branches m f m₁}
      (hlen : branches.length = 1 ∨ branches.length = 2)
      (hcond : Evaluates limit (.expr room env condition) m (.error f m₁)) :
    Evaluates limit (.form room env .choose (condition :: branches)) m (.error f m₁)
  | branch {room env condition branches m c m₁ e r}
      (hlen : branches.length = 1 ∨ branches.length = 2)
      (hcond : Evaluates limit (.expr room env condition) m (.ok c m₁))
      (hchosen : chosen? c branches = some e)
      (hbranch : Evaluates limit (.expr room env e) m₁ r) :
    Evaluates limit (.form room env .choose (condition :: branches)) m r
  | noBranch {room env condition branches m c m₁}
      (hlen : branches.length = 1 ∨ branches.length = 2)
      (hcond : Evaluates limit (.expr room env condition) m (.ok c m₁))
      (hchosen : chosen? c branches = none) :
    Evaluates limit (.form room env .choose (condition :: branches)) m (.ok .nil m₁)
  | nil {room env m} : Evaluates limit (.each room env []) m (.ok (.list []) m)
  | firstFault {room env e rest m f m₁}
      (hfirst : Evaluates limit (.expr room env e) m (.error f m₁)) :
    Evaluates limit (.each room env (e :: rest)) m (.error f m₁)
  | restFault {room env e rest m v m₁ f m₂}
      (hfirst : Evaluates limit (.expr room env e) m (.ok v m₁))
      (hrest : Evaluates limit (.each room env rest) m₁ (.error f m₂)) :
    Evaluates limit (.each room env (e :: rest)) m (.error f m₂)
  | cons {room env e rest m v m₁ vs m₂}
      (hfirst : Evaluates limit (.expr room env e) m (.ok v m₁))
      (hrest : Evaluates limit (.each room env rest) m₁ (.ok (.list vs) m₂)) :
    Evaluates limit (.each room env (e :: rest)) m (.ok (.list (v :: vs)) m₂)
  | scopeBody {room env bindings body m r} (hlen : bindings.length < 2)
      (hbody : Evaluates limit (.expr room env body) m r) :
    Evaluates limit (.scope room env bindings body) m r
  | scopeName {room env key e rest body m} (hkey : ∀ name, key ≠ .sym name) :
    Evaluates limit (.scope room env (key :: e :: rest) body) m
      (.error (room.formFault key .letName) m)
  | scopeFault {room env name e rest body m f m₁}
      (hvalue : Evaluates limit (.expr room env e) m (.error f m₁)) :
    Evaluates limit (.scope room env (.sym name :: e :: rest) body) m (.error f m₁)
  | scopeBinding {room env name e rest body m v m₁ r}
      (hvalue : Evaluates limit (.expr room env e) m (.ok v m₁))
      (hrest : Evaluates limit (.scope room env rest body) (m₁.bind env name v) r) :
    Evaluates limit (.scope room env (.sym name :: e :: rest) body) m r
  | primitiveTooDeep {room p args m}
      (hroom : roomForPrimitive room p args m = .error .stackDepth m) :
    Evaluates limit (.apply room (.builtin p) args) m (.error .stackDepth m)
  | primitive {room p args m} (hroom : roomForPrimitive room p args m = .ok () m) :
    Evaluates limit (.apply room (.builtin p) args) m (.ofResult (p.apply args) m)
  | arity {room params body env args m} (hlen : params.length ≠ args.length) :
    Evaluates limit (.apply room (.closure params body env) args) m
      (.error (.closureArity params.length args.length) m)
  | refused {room params body env args m} (hlen : params.length = args.length)
      (hdepth : limit ≤ m.depth) :
    Evaluates limit (.apply room (.closure params body env) args) m
      (.error (depthFault limit) (m.pushArguments env params args).refuse)
  | bodyTooDeep {room params body env args m} (hlen : params.length = args.length)
      (hdepth : (m.depth : Int) < limit) (hroom : room.fits 2 = false) :
    Evaluates limit (.apply room (.closure params body env) args) m
      (.error .stackDepth (m.pushArguments env params args).enter.leave)
  | bodyFault {room params body env args m f m₁} (hlen : params.length = args.length)
      (hdepth : (m.depth : Int) < limit) (hroom : room.fits 2 = true)
      (hbody : Evaluates limit (.expr (room.less 2) m.store.size body)
        (m.pushArguments env params args).enter (.error f m₁)) :
    Evaluates limit (.apply room (.closure params body env) args) m (.error f m₁.leave)
  | call {room params body env args m v m₁} (hlen : params.length = args.length)
      (hdepth : (m.depth : Int) < limit) (hroom : room.fits 2 = true)
      (hbody : Evaluates limit (.expr (room.less 2) m.store.size body)
        (m.pushArguments env params args).enter (.ok v m₁)) :
    Evaluates limit (.apply room (.closure params body env) args) m (.ok v m₁.leave)
  | notCallable {room f args m} (hf : f.isFunction = false) :
    Evaluates limit (.apply room f args) m (.error (room.notCallable f) m)

/-! ### Call frames are closed again -/

/-- **Balance**: whatever a run comes to, it leaves as many call frames open as it found. -/
theorem Evaluates.depth_eq {limit : Int} {job : Job} {m : Machine} {r : Outcome}
    (h : Evaluates limit job m r) : r.machine.depth = m.depth := by
  induction h with
  | tooDeep | bound | unbound | constant | formTooDeep | nil | scopeName | primitiveTooDeep
  | arity | refused | bodyTooDeep | notCallable => rfl
  | immediate | primitive => rw [Outcome.machine_ofResult]
  | special _ _ _ _ ih | headFault _ _ _ ih | argumentsTooDeep _ _ _ _ ih | define _ ih
  | defineFault _ ih | letIn _ _ ih | sequence _ ih | sequenceFault _ ih
  | conditionFault _ _ ih | noBranch _ _ _ ih | firstFault _ ih | scopeBody _ _ ih
  | scopeFault _ ih => exact ih
  | argumentsFault _ _ _ _ _ ih₁ ih₂ | branch _ _ _ _ ih₁ ih₂ | restFault _ _ ih₁ ih₂
  | cons _ _ ih₁ ih₂ | scopeBinding _ _ ih₁ ih₂ => exact ih₂.trans ih₁
  | application _ _ _ _ _ _ ih₁ ih₂ ih₃ => exact ih₃.trans (ih₂.trans ih₁)
  | bodyFault _ _ _ _ ih | call _ _ _ _ ih =>
      exact congrArg (· - 1) ih

end TinyLisp
