/-
What the parts of a run may do.

A policy says which jobs may be run and which values may be handed on, and what it
asks of a job it asks of the parts of the job. So a run that starts under a policy
stays under it, as long as what names mean may be handed on. By one policy nothing
refers to some names. By another one no expression has a symbol among the names that
are hidden in its environment, and nothing is bound in environments that are sealed.

* `Policy`: the laws of a policy, one for each kind of part.
* `Policy.ofReferences`: nothing refers to some names.
* `Value.Avoids`, `Job.Avoids`: no hidden name in an expression and in the bodies of
  its closures.
* `Policy.ofSymbols`: hidden names and sealed environments.
-/
import TinyLisp.Proofs.DataMaps
import TinyLisp.Proofs.References

namespace TinyLisp

/-! ### Policies -/

/-- Which jobs may be run and which values may be handed on. -/
structure Policy where
  /-- The jobs that may be run. -/
  Allows : Job → Prop
  /-- The values that may be handed on. -/
  Passes : Value → Prop
  /-- The environments in which nothing may be bound. -/
  IsSealed : ℕ → Prop
  /-- The environments that may be made inside an environment. -/
  Inside : ℕ → ℕ → Prop
  not_sealed {outer inner : ℕ} (h : Inside outer inner) : ¬ IsSealed inner
  leaf {v : Value} (hv : v.isLeaf = true) : Passes v
  list {vs : List Value} : Passes (.list vs) ↔ ∀ v ∈ vs, Passes v
  constant {room : Room} {env : ℕ} {e : Value} (h : Allows (.expr room env e))
    (he : e.isConstant = true) : Passes e
  special {room room' : Room} {env : ℕ} {head : Value} {tail : List Value} {form : SpecialForm}
    (h : Allows (.expr room env (.list (head :: tail))))
    (hform : SpecialForm.ofHead? head = some form) : Allows (.form room' env form tail)
  /-- The head of an application, and its arguments. -/
  application {room room' : Room} {env : ℕ} {head : Value} {tail : List Value}
    (h : Allows (.expr room env (.list (head :: tail))))
    (hform : SpecialForm.ofHead? head = none) :
    Allows (.expr room' env head) ∧ Allows (.each room' env tail)
  define {room : Room} {env : ℕ} {name : String} {e : Value}
    (h : Allows (.form room env .define [.sym name, e])) :
    ¬ IsSealed env ∧ Allows (.expr room env e)
  letIn {room : Room} {env inner : ℕ} {bindings : List Value} {body : Value}
    (h : Allows (.form room env .letIn [.list bindings, body])) (heven : bindings.length % 2 = 0)
    (hinner : Inside env inner) : Allows (.scope room inner bindings body)
  sequence {room : Room} {env : ℕ} {parts : List Value}
    (h : Allows (.form room env .sequence parts)) : Allows (.each room env parts)
  /-- The condition of a conditional, and its branches. -/
  choose {room : Room} {env : ℕ} {condition : Value} {branches : List Value}
    (h : Allows (.form room env .choose (condition :: branches)))
    (hlen : branches.length = 1 ∨ branches.length = 2) :
    Allows (.expr room env condition) ∧ ∀ e ∈ branches, Allows (.expr room env e)
  function {room : Room} {env : ℕ} {params : List String} {body : Value}
    (h : Allows (.form room env .function [.list (params.map .sym), body])) :
    Passes (.closure params body env)
  /-- The first of some expressions, and the others. -/
  each {room : Room} {env : ℕ} {e : Value} {rest : List Value}
    (h : Allows (.each room env (e :: rest))) :
    Allows (.expr room env e) ∧ Allows (.each room env rest)
  /-- The value of the first binding of a scope, and the scope that is left. -/
  scope {room : Room} {env : ℕ} {name : String} {e body : Value} {rest : List Value}
    (h : Allows (.scope room env (.sym name :: e :: rest) body)) :
    ¬ IsSealed env ∧ Allows (.expr room env e) ∧ Allows (.scope room env rest body)
  scopeBody {room : Room} {env : ℕ} {bindings : List Value} {body : Value}
    (h : Allows (.scope room env bindings body)) (hlen : bindings.length < 2) :
    Allows (.expr room env body)
  apply {room : Room} {f : Value} {args : List Value} :
    Allows (.apply room f args) ↔ Passes f ∧ ∀ v ∈ args, Passes v
  /-- The body of a call, in the environment that is made for it. -/
  body {room : Room} {env inner : ℕ} {params : List String} {body : Value}
    (h : Passes (.closure params body env)) (hinner : Inside env inner) :
    Allows (.expr room inner body)

/-- The last of some values that may be handed on. -/
lemma Policy.getLastD (P : Policy) {vs : List Value} (h : ∀ v ∈ vs, P.Passes v) :
    P.Passes (vs.getLastD .nil) :=
  List.forall_mem_cons.mpr ⟨P.leaf rfl, h⟩ _ List.getLastD_mem_cons

/-! ### Nothing refers to some names -/

lemma Value.closureReferences_of_isLeaf {v : Value} (hv : v.isLeaf = true) :
    v.closureReferences = [] := by
  cases v with
  | list items => nomatch hv
  | closure params body env => nomatch hv
  | _ => simp [closureReferences]

/-- Nothing refers to some names. -/
def Policy.ofReferences (names : List String) : Policy where
  Allows job := job.references.Disjoint names
  Passes v := v.closureReferences.Disjoint names
  IsSealed _ := False
  Inside _ _ := True
  not_sealed _ := not_false
  leaf {v} hv := by
    rw [Value.closureReferences_of_isLeaf hv]
    exact List.disjoint_nil_left names
  list := Value.disjoint_closureReferences_list
  constant h he := by
    rw [Value.closureReferences_eq_references he]
    exact h
  special {_ _ _ _ tail _} h hform := by
    rw [Job.references, Value.references_form tail hform] at h
    exact h
  application h hform := Job.disjoint_application hform h
  define h := ⟨not_false, h⟩
  letIn {_ _ _ _ body} h heven _ := by
    rw [Job.references, Value.referencesOfForm_letIn body heven] at h
    exact h
  sequence h := h
  choose h hlen := by
    obtain ⟨hcondition, hbranches⟩ := Job.disjoint_choose hlen h
    exact ⟨hcondition, fun e he =>
      List.disjoint_of_subset_left (Value.references_subset_of_mem he) hbranches⟩
  function {_ _ params _} h := by
    rw [Job.references, Value.referencesOfForm, Value.referencesOfFunction,
      paramNames_map_sym none params] at h
    exact h
  each h := Job.disjoint_each h
  scope h := ⟨not_false, Job.disjoint_scope h⟩
  scopeBody h hlen := by
    rw [Job.references, Value.referencesOfBindings_short _ hlen] at h
    exact h
  apply := Job.disjoint_apply
  body h _ := h

/-! ### Hidden names -/

namespace Value

mutual

/-- No symbol of an expression is among some names, and none in the body of a closure among those
that are hidden in its environment. -/
def Avoids (hidden : ℕ → Set String) (own : Set String) : Value → Prop
  | sym name => name ∉ own
  | list items => AvoidsAll hidden own items
  | closure _ body env => Avoids hidden (hidden env) body
  | _ => True

/-- The same for each of some expressions. -/
def AvoidsAll (hidden : ℕ → Set String) (own : Set String) : List Value → Prop
  | [] => True
  | v :: rest => Avoids hidden own v ∧ AvoidsAll hidden own rest

end

variable {hidden : ℕ → Set String} {own : Set String}

lemma avoids_list {items : List Value} :
    (list items).Avoids hidden own ↔ ∀ v ∈ items, v.Avoids hidden own := by
  rw [Avoids]
  induction items with
  | nil => simp [AvoidsAll]
  | cons v rest ih => rw [AvoidsAll, ih, List.forall_mem_cons]

/-- An expression that is its own value has no symbols but in closures. -/
lemma Avoids.of_isConstant {e : Value} (h : e.Avoids hidden own) (he : e.isConstant = true) :
    e.Avoids hidden ∅ := by
  cases e with
  | list items =>
      cases items with
      | nil => exact avoids_list.mpr nofun
      | cons head tail => nomatch he
  | sym name => nomatch he
  | closure params body env =>
      rw [Avoids] at h ⊢
      exact h
  | _ => trivial

lemma avoids_of_isLeaf {v : Value} (hv : v.isLeaf = true) : v.Avoids hidden ∅ := by
  cases v with
  | list items => nomatch hv
  | closure params body env => nomatch hv
  | sym name => exact Set.notMem_empty name
  | _ => trivial

/-- Where no name is hidden none is to be avoided. -/
lemma avoids_of_forall_eq_empty (hhidden : ∀ env, hidden env = ∅) (v : Value) :
    v.Avoids hidden ∅ := by
  induction v using Value.induct with
  | list items ih => exact avoids_list.mpr ih
  | closure params body env ih =>
      rw [Avoids, hhidden]
      exact ih
  | nil | bool _ | int _ | str _ | sym _ | kw _ | builtin _ | foreign _ =>
      exact avoids_of_isLeaf rfl

end Value

/-- A job looks up no hidden name, and binds nothing in a sealed environment. -/
def Job.Avoids (hidden : ℕ → Set String) (IsSealed : ℕ → Prop) : Job → Prop
  | .expr _ env e => e.Avoids hidden (hidden env) ∧ (IsSealed env → e.directDefs = [])
  | .form _ env which parts =>
    (∀ e ∈ parts, e.Avoids hidden (hidden env)) ∧
      (IsSealed env → Value.directDefsOfForm parts which = [])
  | .each _ env es =>
    (∀ e ∈ es, e.Avoids hidden (hidden env)) ∧ (IsSealed env → Value.directDefsOfEach es = [])
  | .scope _ env bindings body =>
    (∀ e ∈ bindings, e.Avoids hidden (hidden env)) ∧ body.Avoids hidden (hidden env) ∧
      ¬ IsSealed env
  | .apply _ f args => f.Avoids hidden ∅ ∧ ∀ v ∈ args, v.Avoids hidden ∅

namespace Job.Avoids

variable {hidden : ℕ → Set String} {IsSealed : ℕ → Prop} {room room' : Room} {env : ℕ}

lemma special {head : Value} {tail : List Value} {form : SpecialForm}
    (h : (Job.expr room env (.list (head :: tail))).Avoids hidden IsSealed)
    (hform : SpecialForm.ofHead? head = some form) :
    (Job.form room' env form tail).Avoids hidden IsSealed := by
  refine ⟨fun e he => Value.avoids_list.mp h.1 e (List.mem_cons_of_mem _ he), fun henv => ?_⟩
  rw [← Value.directDefs_form tail hform]
  exact h.2 henv

lemma application {head : Value} {tail : List Value}
    (h : (Job.expr room env (.list (head :: tail))).Avoids hidden IsSealed)
    (hform : SpecialForm.ofHead? head = none) :
    (Job.expr room' env head).Avoids hidden IsSealed ∧
      (Job.each room' env tail).Avoids hidden IsSealed := by
  have hitems := List.forall_mem_cons.mp (Value.avoids_list.mp h.1)
  have hdefs (henv : IsSealed env) : head.directDefs = [] ∧ Value.directDefsOfEach tail = [] := by
    rw [← List.append_eq_nil_iff, ← Value.directDefs_application tail hform]
    exact h.2 henv
  exact ⟨⟨hitems.1, fun henv => (hdefs henv).1⟩, hitems.2, fun henv => (hdefs henv).2⟩

lemma each {e : Value} {rest : List Value}
    (h : (Job.each room env (e :: rest)).Avoids hidden IsSealed) :
    (Job.expr room env e).Avoids hidden IsSealed ∧
      (Job.each room env rest).Avoids hidden IsSealed := by
  have hitems := List.forall_mem_cons.mp h.1
  have hdefs (henv : IsSealed env) : e.directDefs = [] ∧ Value.directDefsOfEach rest = [] := by
    rw [← List.append_eq_nil_iff, ← Value.directDefsOfEach]
    exact h.2 henv
  exact ⟨⟨hitems.1, fun henv => (hdefs henv).1⟩, hitems.2, fun henv => (hdefs henv).2⟩

/-- Each of some expressions in order. -/
lemma of_mem {e : Value} {es : List Value} (h : (Job.each room env es).Avoids hidden IsSealed)
    (he : e ∈ es) : (Job.expr room env e).Avoids hidden IsSealed := by
  refine ⟨h.1 e he, fun henv => ?_⟩
  exact List.eq_nil_of_subset_nil (h.2 henv ▸ Value.directDefs_subset_of_mem he)

/-- A definition is not in a sealed environment. -/
lemma define {name : String} {e : Value}
    (h : (Job.form room env .define [.sym name, e]).Avoids hidden IsSealed) :
    ¬ IsSealed env ∧ (Job.expr room env e).Avoids hidden IsSealed := by
  have henv : ¬ IsSealed env := fun hsealed => absurd (h.2 hsealed) (List.cons_ne_nil _ _)
  exact ⟨henv, h.1 e (by simp), fun hsealed => absurd hsealed henv⟩

lemma choose {condition : Value} {branches : List Value}
    (h : (Job.form room env .choose (condition :: branches)).Avoids hidden IsSealed) :
    (Job.expr room env condition).Avoids hidden IsSealed ∧
      ∀ e ∈ branches, (Job.expr room env e).Avoids hidden IsSealed := by
  have hparts : (Job.each room env (condition :: branches)).Avoids hidden IsSealed := h
  exact ⟨hparts.each.1, fun e he => hparts.each.2.of_mem he⟩

lemma letIn {inner : ℕ} {bindings : List Value} {body : Value}
    (h : (Job.form room env .letIn [.list bindings, body]).Avoids hidden IsSealed)
    (hhidden : hidden inner = hidden env) (hopen : ¬ IsSealed inner) :
    (Job.scope room inner bindings body).Avoids hidden IsSealed := by
  have hbindings := Value.avoids_list.mp (h.1 (.list bindings) (by simp))
  have hbody := h.1 body (by simp)
  rw [← hhidden] at hbindings hbody
  exact ⟨hbindings, hbody, hopen⟩

lemma scope {key e body : Value} {rest : List Value}
    (h : (Job.scope room env (key :: e :: rest) body).Avoids hidden IsSealed) :
    (Job.expr room env e).Avoids hidden IsSealed ∧
      (Job.scope room env rest body).Avoids hidden IsSealed := by
  obtain ⟨hbindings, hbody, henv⟩ := h
  have htail := (List.forall_mem_cons.mp hbindings).2
  exact ⟨⟨htail e List.mem_cons_self, fun hsealed => absurd hsealed henv⟩,
    fun e' he' => htail e' (List.mem_cons_of_mem _ he'), hbody, henv⟩

end Job.Avoids

/-- No hidden name is looked up, and nothing is bound in a sealed environment. An environment that
is made inside another one hides the same names. -/
def Policy.ofSymbols (hidden : ℕ → Set String) (IsSealed : ℕ → Prop) : Policy where
  Allows job := job.Avoids hidden IsSealed
  Passes v := v.Avoids hidden ∅
  IsSealed := IsSealed
  Inside outer inner := hidden inner = hidden outer ∧ ¬ IsSealed inner
  not_sealed h := h.2
  leaf hv := Value.avoids_of_isLeaf hv
  list := Value.avoids_list
  constant h he := h.1.of_isConstant he
  special h hform := h.special hform
  application h hform := h.application hform
  define h := h.define
  letIn h _ hinner := h.letIn hinner.1 hinner.2
  sequence h := h
  choose h _ := h.choose
  function h := by
    rw [Value.Avoids]
    exact h.1 _ (by simp)
  each h := h.each
  scope h := ⟨h.2.2, h.scope⟩
  scopeBody h _ := ⟨h.2.1, fun hsealed => absurd hsealed h.2.2⟩
  apply := Iff.rfl
  body h hinner := by
    rw [Value.Avoids, ← hinner.1] at h
    exact ⟨h, fun hsealed => absurd hsealed hinner.2⟩

end TinyLisp
