/-
Special forms.

A list whose head is the symbol of a special form is evaluated by a rule of its
own, whatever that symbol is bound to. Only the symbol itself counts: the head
is looked at before anything is evaluated.

* `SpecialForm`: the five special forms, and their names.
* `SpecialForm.ofHead?`: the special form that a head announces.
* `Room.formFault`: the fault of a form with a part of the wrong type.
* `paramNames`, `closureOf`: the names in a parameter list, and the closure of a
  function form.
-/
import TinyLisp.Evaluation.Machine
import TinyLisp.Value.Inspect

namespace TinyLisp

/-- The special forms. -/
inductive SpecialForm where
  | define
  | letIn
  | sequence
  | choose
  | function
  deriving DecidableEq

namespace SpecialForm

/-- The symbol of a special form. -/
def name : SpecialForm → String
  | define => "def!"
  | letIn => "let*"
  | sequence => "do"
  | choose => "if"
  | function => "fn*"

/-- All special forms. -/
def all : List SpecialForm :=
  [define, letIn, sequence, choose, function]

/-- The special form of a symbol. -/
def ofName? (name : String) : Option SpecialForm :=
  all.find? (·.name == name)

/-- The special form that the head of a list announces. -/
def ofHead? : Value → Option SpecialForm
  | .sym name => ofName? name
  | _ => none

end SpecialForm

/-- The fault of a form with a part of the wrong type, which the fault shows; its diagnostic form
takes one frame a level. -/
def Room.formFault (room : Room) (part : Value) (fault : String → FormFault) : Fault :=
  room.faultWithin (fun _ => 1 + part.inspectLevels.1) fun _ =>
    Fault.showing part.inspect fun shown => .form (fault shown)

/-- The names in a parameter list, which holds symbols only. -/
def paramNames (room : Room) : List Value → Except Fault (List String)
  | [] => .ok []
  | .sym name :: rest => (paramNames room rest).map (name :: ·)
  | v :: _ => .error (room.formFault v .fnParam)

/-- The closure of a function form: a parameter list and a body, which is not evaluated. -/
def closureOf (room : Room) (env : Nat) : List Value → Except Fault Value
  | [.list params, body] => (paramNames room params).map fun names => .closure names body env
  | [v, _] => .error (room.formFault v .fnParams)
  | _ => .error (.form .fnArity)

end TinyLisp
