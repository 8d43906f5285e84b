/-
Well-scoped programs never meet an unbound name.

An expression is scoped in some names when every symbol in it that evaluation
could look up is one of them or is bound around it. The bindings of a scope count
from the next binding on, the parameters of a function in its body; a definition
does not count, since it may come too late. A form whose shape is wrong evaluates
none of its parts and is scoped. A closure is scoped when its body is, in what is
visible from the environment that it captured and in its parameters.

* `Value.Scoped`: an expression that is scoped in some names.
* `Value.ClosuresScoped`, `Store.ClosuresScoped`: every closure of a value and of a
  store is scoped.
* `Value.Scoped.mono`, `Value.ClosuresScoped.mono`: more names do not hurt.
* `Job.WellScoped`, `Outcome.WellScoped`: what a run starts with and what it comes to.
* `Evaluates.wellScoped`: a run that is well scoped at its start stays so.
* `scoped_evaluation_finds_names` (**scope soundness**).
-/
import TinyLisp.Proofs.Lookups
import TinyLisp.Proofs.Origins
import TinyLisp.Proofs.References
import TinyLisp.Proofs.Termination

namespace TinyLisp

namespace Value

/-! ### Scoped expressions -/

/-- The name that a key of a scope binds. -/
def keyNames : Value → Set String
  | sym name => {name}
  | _ => ∅

mutual

/-- Every symbol of an expression that evaluation could look up is among some names, or is bound
around it. -/
def Scoped (names : Set String) : Value → Prop
  | sym name => name ∈ names
  | list (head :: tail) =>
    match SpecialForm.ofHead? head with
    | some .define => ScopedDefinition names tail
    | some .letIn => ScopedLet names tail
    | some .sequence => ScopedEach names tail
    | some .choose => tail.length = 2 ∨ tail.length = 3 → ScopedEach names tail
    | some .function => ScopedFunction names tail
    | none => Scoped names head ∧ ScopedEach names tail
  | _ => True

/-- Each of some expressions is scoped. -/
def ScopedEach (names : Set String) : List Value → Prop
  | [] => True
  | e :: rest => Scoped names e ∧ ScopedEach names rest

/-- The value of a definition is scoped. -/
def ScopedDefinition (names : Set String) : List Value → Prop
  | [sym _, e] => Scoped names e
  | _ => True

/-- The bindings and the body of a scope are scoped. -/
def ScopedLet (names : Set String) : List Value → Prop
  | [list bindings, body] =>
    bindings.length % 2 = 0 → ScopedBindings (fun inner => Scoped inner body) names bindings
  | _ => True

/-- The value of each binding is scoped in the names so far, and a body in all of them. -/
def ScopedBindings (body : Set String → Prop) (names : Set String) : List Value → Prop
  | key :: e :: rest => Scoped names e ∧ ScopedBindings body (names ∪ keyNames key) rest
  | _ => body names

/-- The body of a function form is scoped, with the parameters. -/
def ScopedFunction (names : Set String) : List Value → Prop
  | [list params, body] => ∀ bound, paramNames none params = .ok bound →
    Scoped (names ∪ {name | name ∈ bound}) body
  | _ => True

end

/-- The parts of a special form are scoped. -/
def ScopedForm (names : Set String) (parts : List Value) : SpecialForm → Prop
  | .define => ScopedDefinition names parts
  | .letIn => ScopedLet names parts
  | .sequence => ScopedEach names parts
  | .choose => parts.length = 2 ∨ parts.length = 3 → ScopedEach names parts
  | .function => ScopedFunction names parts

lemma scoped_form {head : Value} {form : SpecialForm} (names : Set String) (tail : List Value)
    (h : SpecialForm.ofHead? head = some form) :
    (list (head :: tail)).Scoped names ↔ ScopedForm names tail form := by
  rw [Scoped, h]
  cases form <;> rfl

lemma scoped_application {head : Value} (names : Set String) (tail : List Value)
    (h : SpecialForm.ofHead? head = none) :
    (list (head :: tail)).Scoped names ↔ head.Scoped names ∧ ScopedEach names tail := by
  rw [Scoped, h]

lemma scopedEach_iff {names : Set String} {es : List Value} :
    ScopedEach names es ↔ ∀ e ∈ es, e.Scoped names := by
  induction es with
  | nil => simp [ScopedEach]
  | cons e rest ih => rw [ScopedEach, ih, List.forall_mem_cons]

/-- No binding is left. -/
lemma scopedBindings_short {body : Set String → Prop} {names : Set String}
    {bindings : List Value} (h : bindings.length < 2) :
    ScopedBindings body names bindings ↔ body names := by
  match bindings with
  | [] | [_] => simp [ScopedBindings]
  | _ :: _ :: _ => simp at h

/-! ### More names -/

mutual

lemma Scoped.mono : ∀ {e : Value} {names names' : Set String}, names ⊆ names' →
    e.Scoped names → e.Scoped names'
  | .sym _, _, _, hsub, h => hsub h
  | .list (head :: tail), names, names', hsub, h => by
      cases hform : SpecialForm.ofHead? head with
      | none =>
          rw [scoped_application _ _ hform] at h ⊢
          exact ⟨Scoped.mono hsub h.1, ScopedEach.mono hsub h.2⟩
      | some form =>
          rw [scoped_form _ _ hform] at h ⊢
          cases form with
          | define => exact ScopedDefinition.mono hsub h
          | letIn => exact ScopedLet.mono hsub h
          | sequence => exact ScopedEach.mono hsub h
          | choose => exact fun hlen => ScopedEach.mono hsub (h hlen)
          | function => exact ScopedFunction.mono hsub h
  | .list [], _, _, _, _ | .nil, _, _, _, _ | .bool _, _, _, _, _ | .int _, _, _, _, _
  | .str _, _, _, _, _ | .kw _, _, _, _, _ | .builtin _, _, _, _, _ | .closure _ _ _, _, _, _, _
  | .foreign _, _, _, _, _ => trivial

lemma ScopedEach.mono : ∀ {es : List Value} {names names' : Set String}, names ⊆ names' →
    ScopedEach names es → ScopedEach names' es
  | [], _, _, _, _ => trivial
  | _ :: _, _, _, hsub, h => ⟨Scoped.mono hsub h.1, ScopedEach.mono hsub h.2⟩

lemma ScopedDefinition.mono : ∀ {parts : List Value} {names names' : Set String},
    names ⊆ names' → ScopedDefinition names parts → ScopedDefinition names' parts
  | parts, names, names', hsub, h => by
      unfold ScopedDefinition at h ⊢
      split
      · exact Scoped.mono hsub h
      · trivial

lemma ScopedLet.mono : ∀ {parts : List Value} {names names' : Set String}, names ⊆ names' →
    ScopedLet names parts → ScopedLet names' parts
  | parts, names, names', hsub, h => by
      unfold ScopedLet at h ⊢
      split
      · exact fun heven => ScopedBindings.mono (fun hsub => Scoped.mono hsub) hsub (h heven)
      · trivial

lemma ScopedBindings.mono {body : Set String → Prop}
    (hbody : ∀ {names names'}, names ⊆ names' → body names → body names') :
    ∀ {bindings : List Value} {names names' : Set String}, names ⊆ names' →
      ScopedBindings body names bindings → ScopedBindings body names' bindings
  | [], _, _, hsub, h | [_], _, _, hsub, h => hbody hsub h
  | _ :: _ :: _, _, _, hsub, h =>
      ⟨Scoped.mono hsub h.1,
        ScopedBindings.mono hbody (Set.union_subset_union_left _ hsub) h.2⟩

lemma ScopedFunction.mono : ∀ {parts : List Value} {names names' : Set String},
    names ⊆ names' → ScopedFunction names parts → ScopedFunction names' parts
  | parts, names, names', hsub, h => by
      unfold ScopedFunction at h ⊢
      split
      · exact fun bound hbound =>
          Scoped.mono (Set.union_subset_union_left _ hsub) (h bound hbound)
      · trivial

end

lemma ScopedForm.mono {names names' : Set String} (hsub : names ⊆ names') {parts : List Value}
    {form : SpecialForm} (h : ScopedForm names parts form) : ScopedForm names' parts form := by
  cases form with
  | define => exact ScopedDefinition.mono hsub h
  | letIn => exact ScopedLet.mono hsub h
  | sequence => exact ScopedEach.mono hsub h
  | choose => exact fun hlen => ScopedEach.mono hsub (h hlen)
  | function => exact ScopedFunction.mono hsub h

/-! ### Scoped closures -/

mutual

/-- Every closure in a value, and in the bodies of its closures, has a body that is scoped in what
is visible from its environment and in its parameters. -/
def ClosuresScoped (visible : ℕ → Set String) : Value → Prop
  | list items => ClosuresScopedAll visible items
  | closure params body env =>
    body.Scoped (visible env ∪ {name | name ∈ params}) ∧ ClosuresScoped visible body
  | _ => True

/-- The same for each of some values. -/
def ClosuresScopedAll (visible : ℕ → Set String) : List Value → Prop
  | [] => True
  | v :: rest => ClosuresScoped visible v ∧ ClosuresScopedAll visible rest

end

variable {visible visible' : ℕ → Set String}

lemma closuresScoped_list {items : List Value} :
    (list items).ClosuresScoped visible ↔ ∀ v ∈ items, v.ClosuresScoped visible := by
  rw [ClosuresScoped]
  induction items with
  | nil => simp [ClosuresScopedAll]
  | cons v rest ih => rw [ClosuresScopedAll, ih, List.forall_mem_cons]

lemma ClosuresScoped.mono (hsub : ∀ env, visible env ⊆ visible' env) {v : Value}
    (h : v.ClosuresScoped visible) : v.ClosuresScoped visible' := by
  induction v using Value.induct with
  | list items ih =>
      rw [closuresScoped_list] at h ⊢
      exact fun v hv => ih v hv (h v hv)
  | closure params body env ih =>
      rw [ClosuresScoped] at h ⊢
      exact ⟨h.1.mono (Set.union_subset_union_left _ (hsub env)), ih h.2⟩
  | nil | bool _ | int _ | str _ | sym _ | kw _ | builtin _ | foreign _ => trivial

end Value

/-! ### Scoped stores -/

/-- Every closure that a store binds is scoped. -/
def Store.ClosuresScoped (s : Store) : Prop :=
  s.BindsOnly fun v => v.ClosuresScoped s.visible

namespace Store

variable {s s' : Store}

lemma closuresScoped_root : (Store.empty.create none).2.ClosuresScoped := fun k entry hentry => by
  rw [bindings_create] at hentry
  nomatch hentry

lemma ClosuresScoped.set (h : s.ClosuresScoped) (env : ℕ) (name : String) {v : Value}
    (hv : v.ClosuresScoped s.visible) : (s.set env name v).ClosuresScoped :=
  (BindsOnly.set h env name hv).mono fun _ hw => hw.mono (visible_subset_set s env name v)

lemma ClosuresScoped.create (h : s.ClosuresScoped) (outer : ℕ) :
    (s.create (some outer)).2.ClosuresScoped :=
  (BindsOnly.create h _).mono fun _ hw =>
    hw.mono (Keeps.create (fun _ => ∅) s (some outer)).visible_subset

lemma ClosuresScoped.createWith (h : s.ClosuresScoped) (outer : ℕ) (params : List String)
    {args : List Value} (hargs : ∀ v ∈ args, v.ClosuresScoped s.visible) :
    (s.createWith outer (params.zip args)).2.ClosuresScoped :=
  (BindsOnly.createWith h outer params hargs).mono fun _ hw =>
    hw.mono (Keeps.createWith (fun _ => ∅) s outer _).visible_subset

end Store

/-! ### Well-scoped runs -/

/-- An expression or the parts of it are scoped in what is visible, and so are its closures. The
environment of a scope has to exist, since its bindings become visible one by one. -/
def Job.WellScoped (s : Store) : Job → Prop
  | .expr _ env e => e.Scoped (s.visible env) ∧ e.ClosuresScoped s.visible
  | .form _ env which parts =>
    Value.ScopedForm (s.visible env) parts which ∧ ∀ e ∈ parts, e.ClosuresScoped s.visible
  | .each _ env es =>
    Value.ScopedEach (s.visible env) es ∧ ∀ e ∈ es, e.ClosuresScoped s.visible
  | .scope _ env bindings body =>
    env < s.size ∧ Value.ScopedBindings (fun inner => body.Scoped inner) (s.visible env) bindings ∧
      (∀ e ∈ bindings, e.ClosuresScoped s.visible) ∧ body.ClosuresScoped s.visible
  | .apply _ f args => f.ClosuresScoped s.visible ∧ ∀ v ∈ args, v.ClosuresScoped s.visible

/-- A run that ended well scoped: its closures are scoped, and it met no unbound name. -/
structure Outcome.WellScoped (r : Outcome) : Prop where
  store : r.machine.store.ClosuresScoped
  value : ∀ v, r.result = .ok v → v.ClosuresScoped r.machine.store.visible
  bound : ∀ f, r.result = .error f → f.kind ≠ .symbolNotFound

section

variable {m : Machine}

lemma Outcome.WellScoped.ok {v : Value} (hs : m.store.ClosuresScoped)
    (hv : v.ClosuresScoped m.store.visible) : Outcome.WellScoped (.ok v m) where
  store := hs
  value w hw := by rwa [← Except.ok.inj hw]
  bound _ hf := nomatch hf

lemma Outcome.WellScoped.error {f : Fault} (hs : m.store.ClosuresScoped)
    (hf : f.kind ≠ .symbolNotFound) : Outcome.WellScoped (.error f m) where
  store := hs
  value _ hw := nomatch hw
  bound g hg := by rwa [← Except.error.inj hg]

lemma Outcome.WellScoped.ofResult {result : Except Fault Value} (hs : m.store.ClosuresScoped)
    (hv : ∀ v, result = .ok v → v.ClosuresScoped m.store.visible)
    (hf : ∀ f, result = .error f → f.kind ≠ .symbolNotFound) :
    Outcome.WellScoped (.ofResult result m) := by
  cases result with
  | ok v => exact .ok hs (hv v rfl)
  | error f => exact .error hs (hf f rfl)

end

namespace Job.WellScoped

open Value

variable {s s' : Store} {room room' : Room} {env : ℕ}

/-- What is well scoped stays so when environments and bindings are added. -/
lemma mono {may : ℕ → Set String} (hkeeps : s.Keeps may s') {job : Job} (h : job.WellScoped s) :
    job.WellScoped s' := by
  have hsub := hkeeps.visible_subset
  have hclosures {es : List Value} (h : ∀ e ∈ es, e.ClosuresScoped s.visible) :
      ∀ e ∈ es, e.ClosuresScoped s'.visible := fun e he => (h e he).mono hsub
  cases job with
  | expr room env e => exact ⟨h.1.mono (hsub env), h.2.mono hsub⟩
  | form room env which parts => exact ⟨ScopedForm.mono (hsub env) h.1, hclosures h.2⟩
  | each room env es => exact ⟨h.1.mono (hsub env), hclosures h.2⟩
  | scope room env bindings body =>
      exact ⟨h.1.trans_le hkeeps.size_le,
        ScopedBindings.mono (fun hsub => Scoped.mono hsub) (hsub env) h.2.1,
        hclosures h.2.2.1, h.2.2.2.mono hsub⟩
  | apply room f args => exact ⟨h.1.mono hsub, hclosures h.2⟩

/-- The parts of a special form. -/
lemma special {head : Value} {tail : List Value} {form : SpecialForm}
    (h : (Job.expr room env (.list (head :: tail))).WellScoped s)
    (hform : SpecialForm.ofHead? head = some form) :
    (Job.form room' env form tail).WellScoped s :=
  ⟨(scoped_form _ _ hform).mp h.1,
    fun e he => closuresScoped_list.mp h.2 e (List.mem_cons_of_mem _ he)⟩

/-- The head of an application, and its arguments. -/
lemma application {head : Value} {tail : List Value}
    (h : (Job.expr room env (.list (head :: tail))).WellScoped s)
    (hform : SpecialForm.ofHead? head = none) :
    (Job.expr room' env head).WellScoped s ∧ (Job.each room' env tail).WellScoped s := by
  have hscoped := (scoped_application _ _ hform).mp h.1
  have hclosures := List.forall_mem_cons.mp (closuresScoped_list.mp h.2)
  exact ⟨⟨hscoped.1, hclosures.1⟩, hscoped.2, hclosures.2⟩

lemma define {name : String} {e : Value}
    (h : (Job.form room env .define [.sym name, e]).WellScoped s) :
    (Job.expr room env e).WellScoped s :=
  ⟨h.1, h.2 e (by simp)⟩

/-- The bindings of a scope are evaluated in the environment that was made for it. -/
lemma letIn {bindings : List Value} {body : Value}
    (h : (Job.form room env .letIn [.list bindings, body]).WellScoped s)
    (heven : bindings.length % 2 = 0) :
    (Job.scope room s.size bindings body).WellScoped (s.create (some env)).2 := by
  have hsub := (Store.Keeps.create (fun _ => ∅) s (some env)).visible_subset
  have hbindings := closuresScoped_list.mp (h.2 (.list bindings) (by simp))
  have hbody := h.2 body (by simp)
  refine ⟨by simp, ?_, fun e he => (hbindings e he).mono hsub, hbody.mono hsub⟩
  exact ScopedBindings.mono (fun hsub => Scoped.mono hsub) (Store.visible_subset_create s env)
    (h.1 heven)

/-- The first of the expressions, and the others. -/
lemma each {e : Value} {rest : List Value} (h : (Job.each room env (e :: rest)).WellScoped s) :
    (Job.expr room env e).WellScoped s ∧ (Job.each room env rest).WellScoped s := by
  have hclosures := List.forall_mem_cons.mp h.2
  exact ⟨⟨h.1.1, hclosures.1⟩, h.1.2, hclosures.2⟩

/-- The condition and the branches of a conditional. -/
lemma choose {condition : Value} {branches : List Value}
    (h : (Job.form room env .choose (condition :: branches)).WellScoped s)
    (hlen : branches.length = 1 ∨ branches.length = 2) :
    (Job.each room env (condition :: branches)).WellScoped s :=
  ⟨h.1 (by simpa using hlen), h.2⟩

lemma branch {c e : Value} {branches : List Value}
    (h : (Job.each room env branches).WellScoped s) (hchosen : chosen? c branches = some e) :
    (Job.expr room env e).WellScoped s :=
  ⟨scopedEach_iff.mp h.1 e (mem_of_chosen? hchosen), h.2 e (mem_of_chosen? hchosen)⟩

/-- The value of the first binding, -/
lemma scopeValue {key e body : Value} {rest : List Value}
    (h : (Job.scope room env (key :: e :: rest) body).WellScoped s) :
    (Job.expr room env e).WellScoped s :=
  ⟨h.2.1.1, h.2.2.1 e (by simp)⟩

/-- and the scope that is left once its name is bound. -/
lemma scopeRest {may : ℕ → Set String} {name : String} {e body v : Value} {rest : List Value}
    (h : (Job.scope room env (.sym name :: e :: rest) body).WellScoped s)
    (hkeeps : s.Keeps may s') :
    (Job.scope room env rest body).WellScoped (s'.set env name v) := by
  have hsub (k : ℕ) := (hkeeps.visible_subset k).trans (Store.visible_subset_set s' env name v k)
  obtain ⟨henv, ⟨-, hrest⟩, hbindings, hbody⟩ := h
  have henv' : env < s'.size := henv.trans_le hkeeps.size_le
  refine ⟨by rwa [Store.size_set], ?_, fun e he => (hbindings e ?_).mono hsub, hbody.mono hsub⟩
  · refine ScopedBindings.mono (fun hsub => Scoped.mono hsub) ?_ hrest
    exact Set.union_subset (hsub env)
      (Set.singleton_subset_iff.mpr (Store.mem_visible_set henv' name v))
  · exact List.mem_cons_of_mem _ (List.mem_cons_of_mem _ he)

lemma scopeBody {bindings : List Value} {body : Value}
    (h : (Job.scope room env bindings body).WellScoped s) (hlen : bindings.length < 2) :
    (Job.expr room env body).WellScoped s :=
  ⟨(scopedBindings_short hlen).mp h.2.1, h.2.2.2⟩

/-- A body is evaluated in the environment of the call, where its parameters are visible. -/
lemma body {params : List String} {body : Value} {args : List Value}
    (h : (Job.apply room (.closure params body env) args).WellScoped s)
    (hlen : params.length = args.length) :
    (Job.expr room' s.size body).WellScoped (s.createWith env (params.zip args)).2 := by
  have hclosure := h.1
  rw [ClosuresScoped] at hclosure
  exact ⟨hclosure.1.mono (Store.visible_subset_createWith s env hlen),
    hclosure.2.mono (Store.Keeps.createWith (fun _ => ∅) s env _).visible_subset⟩

end Job.WellScoped

/-! ### Faults of another kind -/

/-- The fault of a part of the wrong type is not of scoping, -/
lemma Room.kind_formFault_ne (room : Room) (part : Value) (fault : String → FormFault) :
    (room.formFault part fault).kind ≠ .symbolNotFound := by
  rcases room.formFault_cases part fault with ⟨text, h⟩ | ⟨g, h⟩ | ⟨-, h⟩ <;> rw [h]
  · cases fault text <;> nofun
  · cases g <;> nofun
  · decide

/-- nor is any other fault of the shape of a form, -/
lemma SpecialForm.kind_immediate?_ne {room : Room} {env : ℕ} {form : SpecialForm}
    {parts : List Value} {f : Fault} (h : form.immediate? room env parts = some (.error f)) :
    f.kind ≠ .symbolNotFound := by
  rcases SpecialForm.immediate?_error_cases h with ⟨g, rfl⟩ | ⟨part, fault, -, rfl⟩
  · cases g <;> nofun
  · exact room.kind_formFault_ne part fault

/-- nor the fault of a primitive, -/
lemma Primitive.kind_apply_ne {p : Primitive} {args : List Value} {f : Fault}
    (h : p.apply args = .error f) : f.kind ≠ .symbolNotFound := by
  rcases Primitive.apply_error_cases h with ⟨_, rfl⟩ | rfl | rfl <;> nofun

/-- nor the refusal of a call, -/
lemma kind_depthFault_ne (limit : ℤ) : (depthFault limit).kind ≠ .symbolNotFound := by
  unfold depthFault
  split <;> nofun

/-- nor the application of what is no function. -/
lemma Room.kind_notCallable_ne (room : Room) (v : Value) :
    (room.notCallable v).kind ≠ .symbolNotFound := by
  rcases room.notCallable_cases v with ⟨_, h⟩ | ⟨g, h⟩ | ⟨-, h⟩ <;> rw [h]
  · nofun
  · cases g <;> nofun
  · decide

/-! ### Scope soundness -/

lemma Value.closuresScoped_getLastD {visible : ℕ → Set String} {vs : List Value}
    (h : ∀ v ∈ vs, v.ClosuresScoped visible) : (vs.getLastD .nil).ClosuresScoped visible :=
  List.forall_mem_cons.mpr ⟨trivial, h⟩ _ List.getLastD_mem_cons

/-- What a function form makes is scoped when the form is. -/
lemma Job.WellScoped.immediate {s : Store} {room : Room} {env : ℕ} {form : SpecialForm}
    {parts : List Value} {v : Value} (hjob : (Job.form room env form parts).WellScoped s)
    (h : form.immediate? room env parts = some (.ok v)) : v.ClosuresScoped s.visible := by
  obtain ⟨rfl, params, body, names, rfl, hnames, rfl⟩ := SpecialForm.immediate?_ok_cases h
  obtain rfl := eq_map_sym_of_paramNames hnames
  rw [Value.ClosuresScoped]
  exact ⟨hjob.1 names (paramNames_map_sym none names), hjob.2 body (by simp)⟩

open Value in
/-- A run that is well scoped at its start stays so, with a value or with a fault. -/
theorem Evaluates.wellScoped {limit : Int} {job : Job} {m : Machine} {r : Outcome}
    (h : Evaluates limit job m r) (hs : m.store.ClosuresScoped) (hjob : job.WellScoped m.store) :
    Outcome.WellScoped r := by
  -- names that are visible stay so, so a part is well scoped where the parts before it ended
  induction h with
  | tooDeep | formTooDeep | primitiveTooDeep | arity => exact .error hs nofun
  | bound _ hv => exact .ok hs (Store.BindsOnly.get? hs hv)
  | unbound _ hv => exact absurd hjob.1 (Store.get?_eq_none_iff.mp hv)
  | constant _ he => exact .ok hs hjob.2
  | special _ hform _ _ ih => exact ih hs (hjob.special hform)
  | headFault _ hform _ ih => exact ih hs (hjob.application hform).1
  | argumentsTooDeep _ hform _ _ ih =>
      exact .error (ih hs (hjob.application hform).1).store nofun
  | argumentsFault _ hform hhead _ _ ih₁ ih₂ =>
      have hf := ih₁ hs (hjob.application hform).1
      exact ih₂ hf.store ((hjob.application hform).2.mono hhead.keeps)
  | application _ hform hhead _ hargs _ ih₁ ih₂ ih₃ =>
      have hf := ih₁ hs (hjob.application hform).1
      have hvs := ih₂ hf.store ((hjob.application hform).2.mono hhead.keeps)
      exact ih₃ hvs.store ⟨(hf.value _ rfl).mono hargs.keeps.visible_subset,
        closuresScoped_list.mp (hvs.value _ rfl)⟩
  | immediate h =>
      exact .ofResult hs (fun v hv => hjob.immediate (hv ▸ h))
        fun f hf => SpecialForm.kind_immediate?_ne (hf ▸ h)
  | define _ ih =>
      have hv := ih hs hjob.define
      exact .ok (hv.store.set _ _ (hv.value _ rfl))
        ((hv.value _ rfl).mono (Store.visible_subset_set _ _ _ _))
  | defineFault _ ih => exact ih hs hjob.define
  | letIn heven _ ih => exact ih (hs.create _) (hjob.letIn heven)
  | sequence _ ih =>
      have hvs := ih hs hjob
      exact .ok hvs.store (closuresScoped_getLastD (closuresScoped_list.mp (hvs.value _ rfl)))
  | sequenceFault _ ih => exact ih hs hjob
  | conditionFault hlen _ ih => exact ih hs (hjob.choose hlen).each.1
  | branch hlen hcond hchosen _ ih₁ ih₂ =>
      have hc := ih₁ hs (hjob.choose hlen).each.1
      exact ih₂ hc.store (((hjob.choose hlen).each.2.branch hchosen).mono hcond.keeps)
  | noBranch hlen _ _ ih => exact .ok (ih hs (hjob.choose hlen).each.1).store trivial
  | nil => exact .ok hs trivial
  | firstFault _ ih => exact ih hs hjob.each.1
  | restFault hfirst _ ih₁ ih₂ =>
      have hv := ih₁ hs hjob.each.1
      exact ih₂ hv.store (hjob.each.2.mono hfirst.keeps)
  | cons hfirst hrest ih₁ ih₂ =>
      have hv := ih₁ hs hjob.each.1
      have hvs := ih₂ hv.store (hjob.each.2.mono hfirst.keeps)
      refine .ok hvs.store (closuresScoped_list.mpr (List.forall_mem_cons.mpr ⟨?_, ?_⟩))
      · exact (hv.value _ rfl).mono hrest.keeps.visible_subset
      · exact closuresScoped_list.mp (hvs.value _ rfl)
  | scopeBody hlen _ ih => exact ih hs (hjob.scopeBody hlen)
  | scopeName => exact .error hs (Room.kind_formFault_ne _ _ _)
  | scopeFault _ ih => exact ih hs hjob.scopeValue
  | scopeBinding hvalue _ ih₁ ih₂ =>
      have hv := ih₁ hs hjob.scopeValue
      exact ih₂ (hv.store.set _ _ (hv.value _ rfl)) (hjob.scopeRest hvalue.keeps)
  | primitive =>
      refine .ofResult hs (fun v hv => ?_) fun f hf => Primitive.kind_apply_ne hf
      rcases apply_cases hv with ⟨z, rfl⟩ | ⟨b, rfl⟩ | rfl
      · trivial
      · trivial
      · exact closuresScoped_list.mpr hjob.2
  | refused => exact .error (hs.createWith _ _ hjob.2) (kind_depthFault_ne _)
  | bodyTooDeep => exact .error (hs.createWith _ _ hjob.2) nofun
  | bodyFault hlen _ _ _ ih =>
      have hbody := ih (hs.createWith _ _ hjob.2) (hjob.body hlen)
      exact .error hbody.store (hbody.bound _ rfl)
  | call hlen _ _ _ ih =>
      have hbody := ih (hs.createWith _ _ hjob.2) (hjob.body hlen)
      exact .ok hbody.store (hbody.value _ rfl)
  | notCallable => exact .error hs (Room.kind_notCallable_ne _ _)

/-- **Scope soundness.** Names that are visible from an environment never disappear. Where every
closure is scoped, those of the expression too, an expression that is scoped in what is visible from
its environment never ends with an unbound name, whatever else it comes to; and every closure is
scoped afterwards, those of its value too. -/
theorem scoped_evaluation_finds_names (limit : Int) (room : Room) (m : Machine) (env : ℕ)
    (e : Value) :
    let r : Outcome := runIn limit room env e m
    (∀ k, m.store.visible k ⊆ r.machine.store.visible k) ∧
    (m.store.ClosuresScoped → e.ClosuresScoped m.store.visible → e.Scoped (m.store.visible env) →
      (∀ f, r.result = .error f → f.kind ≠ .symbolNotFound) ∧
      r.machine.store.ClosuresScoped ∧
      ∀ v, r.result = .ok v → v.ClosuresScoped r.machine.store.visible) := by
  intro r
  have hrun := evaluates_runIn limit room env e m
  refine ⟨hrun.keeps.visible_subset, fun hstore hclosures hscoped => ?_⟩
  have hr : Outcome.WellScoped r := hrun.wellScoped hstore ⟨hscoped, hclosures⟩
  exact ⟨hr.bound, hr.store, hr.value⟩

/-- A function made in a scope that is still growing finds the names that it needs. -/
theorem half_built_scope_finds_names :
    let m : Machine := ⟨(Store.empty.create none).2, 0, []⟩
    let f : Value := .list [.sym "fn*", .list [.sym "y", .sym "y"],
      .list [.sym "if", .sym "y", .sym "x"]]
    let e : Value := .list [.sym "let*", .list [.sym "x", .int 1, .sym "f", f],
      .list [.sym "f", .sym "x", .sym "f"]]
    ∀ f, Outcome.result (runIn 500 none 0 e m) = .error f → f.kind ≠ .symbolNotFound := by
  intro m f e
  have hlet : SpecialForm.ofHead? (.sym "let*") = some .letIn := rfl
  have hfn : SpecialForm.ofHead? (.sym "fn*") = some .function := rfl
  have hif : SpecialForm.ofHead? (.sym "if") = some .choose := rfl
  have happly : SpecialForm.ofHead? (.sym "f") = none := rfl
  have hscoped : e.Scoped (m.store.visible 0) := by
    simp [e, f, Value.Scoped, hlet, hfn, hif, happly, Value.ScopedLet, Value.ScopedBindings,
      Value.ScopedFunction, Value.ScopedEach, Value.keyNames, paramNames, Except.map]
  have hclosures : e.ClosuresScoped m.store.visible := by
    simp [e, f, Value.ClosuresScoped, Value.ClosuresScopedAll]
  exact ((scoped_evaluation_finds_names 500 none m 0 e).2 Store.closuresScoped_root hclosures
    hscoped).1

end TinyLisp
