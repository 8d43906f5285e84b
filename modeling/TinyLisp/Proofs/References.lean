/-
The names that evaluation could look up.

An expression refers to the symbols in it that evaluation could look up. The
symbol of a special form is none of them, nor are the names that a form binds;
a form whose shape is wrong evaluates none of its parts, so nothing in it is.
A closure refers to what its body refers to. A value that is not evaluated any
more refers to names through its closures only.

* `Value.references`: the names that an expression refers to.
* `Value.closureReferences`: the names that the closures of a value refer to.
* `Job.references`: the names that a job refers to.
* `Job.disjoint_application` and the lemmas after it: what it is for the parts of a
  job that the job refers to none of some names.
-/
import TinyLisp.Proofs.Discipline

namespace TinyLisp

namespace Value

/-! ### Expressions -/

mutual

/-- The names that evaluation of an expression could look up: its symbols, but for the symbols of
special forms and the names that these bind, and those of the bodies of its closures. -/
def references : Value → List String
  | sym name => [name]
  | list (head :: tail) =>
    match SpecialForm.ofHead? head with
    | some .define => referencesOfDefinition tail
    | some .letIn => referencesOfLet tail
    | some .sequence => referencesOfEach tail
    | some .choose =>
      if tail.length = 2 ∨ tail.length = 3 then referencesOfEach tail else []
    | some .function => referencesOfFunction tail
    | none => references head ++ referencesOfEach tail
  | closure _ body _ => references body
  | _ => []

/-- The names that some expressions refer to. -/
def referencesOfEach : List Value → List String
  | [] => []
  | e :: rest => references e ++ referencesOfEach rest

/-- The names that the value of a definition refers to. -/
def referencesOfDefinition : List Value → List String
  | [sym _, e] => references e
  | _ => []

/-- The names that the values and the body of a scope refer to. -/
def referencesOfLet : List Value → List String
  | [list bindings, body] =>
    if bindings.length % 2 = 0 then referencesOfBindings (references body) bindings else []
  | _ => []

/-- The names that the values of some bindings refer to, and then those of the body of the scope;
nothing is evaluated from a key on that is no symbol. -/
def referencesOfBindings (body : List String) : List Value → List String
  | sym _ :: e :: rest => references e ++ referencesOfBindings body rest
  | _ :: _ :: _ => []
  | _ => body

/-- The names that the body of a function form refers to. -/
def referencesOfFunction : List Value → List String
  | [list params, body] =>
    match paramNames none params with
    | .ok _ => references body
    | .error _ => []
  | _ => []

end

/-- Neither the symbols of forms nor the names that they bind are referred to. -/
example : (list [sym "let*", list [sym "x", sym "y"],
    list [sym "fn*", list [sym "z"], list [sym "if", sym "z", sym "if"]]]).references =
      ["y", "z", "if"] := by
  rfl

/-- The names that a special form refers to, by its parts. -/
def referencesOfForm (parts : List Value) : SpecialForm → List String
  | .define => referencesOfDefinition parts
  | .letIn => referencesOfLet parts
  | .sequence => referencesOfEach parts
  | .choose => if parts.length = 2 ∨ parts.length = 3 then referencesOfEach parts else []
  | .function => referencesOfFunction parts

lemma references_form {head : Value} {form : SpecialForm} (tail : List Value)
    (h : SpecialForm.ofHead? head = some form) :
    (list (head :: tail)).references = referencesOfForm tail form := by
  rw [references, h]
  cases form <;> rfl

lemma references_application {head : Value} (tail : List Value)
    (h : SpecialForm.ofHead? head = none) :
    (list (head :: tail)).references = head.references ++ referencesOfEach tail := by
  rw [references, h]

lemma references_subset_of_mem {e : Value} {es : List Value} (h : e ∈ es) :
    e.references ⊆ referencesOfEach es :=
  subset_of_mem_each (fun _ _ => by rw [referencesOfEach]) h

/-- A conditional of the right length refers to what its parts refer to. -/
lemma referencesOfForm_choose {condition : Value} {branches : List Value}
    (hlen : branches.length = 1 ∨ branches.length = 2) :
    referencesOfForm (condition :: branches) .choose =
      condition.references ++ referencesOfEach branches := by
  rw [referencesOfForm, if_pos (by simpa using hlen), referencesOfEach]

lemma referencesOfForm_letIn {bindings : List Value} (body : Value)
    (heven : bindings.length % 2 = 0) :
    referencesOfForm [list bindings, body] .letIn =
      referencesOfBindings body.references bindings := by
  rw [referencesOfForm, referencesOfLet, if_pos heven]

/-- No binding is left. -/
lemma referencesOfBindings_short {bindings : List Value} (body : List String)
    (h : bindings.length < 2) : referencesOfBindings body bindings = body := by
  match bindings with
  | [] | [_] => simp [referencesOfBindings]
  | _ :: _ :: _ => simp at h

/-! ### Values -/

mutual

/-- The names that the bodies of the closures in a value refer to. -/
def closureReferences : Value → List String
  | list items => closureReferencesOfEach items
  | closure _ body _ => body.references
  | _ => []

/-- The names that the bodies of the closures in some values refer to. -/
def closureReferencesOfEach : List Value → List String
  | [] => []
  | v :: rest => closureReferences v ++ closureReferencesOfEach rest

end

/-- An expression that is its own value. -/
lemma closureReferences_eq_references {e : Value} (h : e.isConstant = true) :
    e.closureReferences = e.references := by
  cases e with
  | list items =>
      cases items with
      | nil => simp [closureReferences, closureReferencesOfEach, references]
      | cons head tail => nomatch h
  | sym name => nomatch h
  | _ => simp [closureReferences, references]

/-- A list refers to none of some names when none of its items does. -/
lemma disjoint_closureReferences_list {vs : List Value} {names : List String} :
    (list vs).closureReferences.Disjoint names ↔
      ∀ v ∈ vs, v.closureReferences.Disjoint names := by
  rw [closureReferences]
  induction vs with
  | nil => simp [closureReferencesOfEach]
  | cons v rest ih =>
      rw [closureReferencesOfEach, List.disjoint_append_left, ih, List.forall_mem_cons]

end Value

/-! ### Jobs -/

/-- The names that a job refers to. -/
def Job.references : Job → List String
  | .expr _ _ e => e.references
  | .form _ _ which parts => Value.referencesOfForm parts which
  | .each _ _ es => Value.referencesOfEach es
  | .scope _ _ bindings body => Value.referencesOfBindings body.references bindings
  | .apply _ f args => f.closureReferences ++ Value.closureReferencesOfEach args

namespace Job

variable {names : List String} {room : Room} {env : ℕ}

/-- The head and the arguments of an application. -/
lemma disjoint_application {head : Value} {tail : List Value}
    (hform : SpecialForm.ofHead? head = none)
    (h : (Job.expr room env (.list (head :: tail))).references.Disjoint names) :
    head.references.Disjoint names ∧ (Value.referencesOfEach tail).Disjoint names := by
  rw [references, Value.references_application tail hform] at h
  exact List.disjoint_append_left.mp h

/-- The condition and the branches of a conditional. -/
lemma disjoint_choose {condition : Value} {branches : List Value}
    (hlen : branches.length = 1 ∨ branches.length = 2)
    (h : (Job.form room env .choose (condition :: branches)).references.Disjoint names) :
    condition.references.Disjoint names ∧ (Value.referencesOfEach branches).Disjoint names := by
  rw [references, Value.referencesOfForm_choose hlen] at h
  exact List.disjoint_append_left.mp h

/-- The first of some expressions and the others. -/
lemma disjoint_each {e : Value} {rest : List Value}
    (h : (Job.each room env (e :: rest)).references.Disjoint names) :
    e.references.Disjoint names ∧ (Value.referencesOfEach rest).Disjoint names := by
  rw [references, Value.referencesOfEach] at h
  exact List.disjoint_append_left.mp h

/-- The first value of a scope and the scope that is left. -/
lemma disjoint_scope {name : String} {e body : Value} {rest : List Value}
    (h : (Job.scope room env (.sym name :: e :: rest) body).references.Disjoint names) :
    e.references.Disjoint names ∧ (Job.scope room env rest body).references.Disjoint names := by
  rw [references, Value.referencesOfBindings] at h
  exact List.disjoint_append_left.mp h

/-- The function and the arguments of a call. -/
lemma disjoint_apply {f : Value} {args : List Value} :
    (Job.apply room f args).references.Disjoint names ↔
      f.closureReferences.Disjoint names ∧ ∀ v ∈ args, v.closureReferences.Disjoint names := by
  rw [← Value.disjoint_closureReferences_list, Value.closureReferences]
  exact List.disjoint_append_left

end Job

end TinyLisp
