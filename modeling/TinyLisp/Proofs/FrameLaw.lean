/-
The frame law of evaluation.

An evaluation in an environment writes to that environment only through the
definitions that it reaches directly, and to no other environment that was there
before it: a scope and a call write into environments of their own, whatever the
bodies that they evaluate define.

* `Value.directDefs`: the names of the definitions that an expression reaches
  directly.
* `Store.Keeps`: a store after some writes, each at a place where it may write.
* `Job.mayDefine`: where a job may write.
* `Evaluates.keeps`: a run writes only there, with a value or with a fault.
* `evaluation_writes_own_definitions` (**the frame law**).
-/
import TinyLisp.Proofs.Adequacy
import TinyLisp.Proofs.Stores

namespace TinyLisp

/-! ### Definitions that are reached directly -/

/-- What is collected of one item is among what is collected of all. -/
lemma subset_of_mem_each {α β : Type} {one : α → List β} {each : List α → List β}
    (hcons : ∀ a rest, each (a :: rest) = one a ++ each rest) {a : α} {items : List α}
    (h : a ∈ items) : one a ⊆ each items := by
  induction items with
  | nil => exact absurd h (by simp)
  | cons b rest ih =>
      rw [hcons]
      rcases List.mem_cons.mp h with rfl | h
      · exact List.subset_append_left _ _
      · exact List.subset_append_of_subset_right _ (ih h)

namespace Value

mutual

/-- The names of the definitions that an expression reaches directly: through heads and arguments
of applications, elements of a sequence, parts of a conditional and values of definitions, and
through nothing inside a scope or a function form. -/
def directDefs : Value → List String
  | list (head :: tail) =>
    match SpecialForm.ofHead? head with
    | some .define => directDefsOfDefinition tail
    | some .sequence | some .choose => directDefsOfEach tail
    | some .letIn | some .function => []
    | none => directDefs head ++ directDefsOfEach tail
  | _ => []

/-- The name of a definition, and those that its value reaches directly. -/
def directDefsOfDefinition : List Value → List String
  | [.sym name, e] => name :: directDefs e
  | _ => []

/-- The names of the definitions that some of the expressions reach directly. -/
def directDefsOfEach : List Value → List String
  | [] => []
  | e :: rest => directDefs e ++ directDefsOfEach rest

end

/-- The names of the definitions that a special form reaches directly, by its parts. -/
def directDefsOfForm (parts : List Value) : SpecialForm → List String
  | .define => directDefsOfDefinition parts
  | .sequence | .choose => directDefsOfEach parts
  | .letIn | .function => []

lemma directDefs_form {head : Value} {form : SpecialForm} (tail : List Value)
    (h : SpecialForm.ofHead? head = some form) :
    (list (head :: tail)).directDefs = directDefsOfForm tail form := by
  rw [directDefs, h]
  cases form <;> rfl

lemma directDefs_application {head : Value} (tail : List Value)
    (h : SpecialForm.ofHead? head = none) :
    (list (head :: tail)).directDefs = head.directDefs ++ directDefsOfEach tail := by
  rw [directDefs, h]

lemma directDefs_subset_of_mem {e : Value} {es : List Value} (h : e ∈ es) :
    e.directDefs ⊆ directDefsOfEach es :=
  subset_of_mem_each (fun _ _ => by rw [directDefsOfEach]) h

end Value

/-! ### Stores with writes at some places only -/

/-- A store after some writes: new environments may have come, and of those that were there an
environment has other bindings only of names that may be written. -/
structure Store.Keeps (s : Store) (may : ℕ → Set String) (s' : Store) : Prop where
  size_le : s.size ≤ s'.size
  frame?_eq : ∀ k < s.size, may k = ∅ → s'.frame? k = s.frame? k
  outer?_eq : ∀ k < s.size, s'.outer? k = s.outer? k
  names_subset : ∀ k < s.size, (s.bindings k).names ⊆ (s'.bindings k).names
  get?_eq : ∀ k < s.size, ∀ x ∉ may k, (s'.bindings k).get? x = (s.bindings k).get? x

namespace Store

variable {s s' s'' : Store} {may may' : ℕ → Set String}

/-- A store in which every environment is as it was keeps everything. -/
lemma Keeps.of_frame?_eq (hsize : s.size ≤ s'.size)
    (h : ∀ k < s.size, s'.frame? k = s.frame? k) : s.Keeps may s' where
  size_le := hsize
  frame?_eq k hk _ := h k hk
  outer?_eq k hk := outer?_eq_of_frame?_eq (h k hk)
  names_subset k hk := by rw [bindings_eq_of_frame?_eq (h k hk)]; exact List.Subset.refl _
  get?_eq k hk x _ := by rw [bindings_eq_of_frame?_eq (h k hk)]

lemma Keeps.refl (may : ℕ → Set String) (s : Store) : s.Keeps may s :=
  .of_frame?_eq le_rfl fun _ _ => rfl

/-- Writes follow on writes; what the later ones may do to the new environments does not matter. -/
lemma Keeps.trans (h : s.Keeps may s') (h' : s'.Keeps may' s'')
    (hmay : ∀ k < s.size, may' k ⊆ may k) : s.Keeps may s'' where
  size_le := h.size_le.trans h'.size_le
  frame?_eq k hk he := by
    have he' := Set.subset_empty_iff.mp (he ▸ hmay k hk)
    rw [h'.frame?_eq k (hk.trans_le h.size_le) he', h.frame?_eq k hk he]
  outer?_eq k hk := by rw [h'.outer?_eq k (hk.trans_le h.size_le), h.outer?_eq k hk]
  names_subset k hk :=
    List.Subset.trans (h.names_subset k hk) (h'.names_subset k (hk.trans_le h.size_le))
  get?_eq k hk x hx := by
    have hx' := fun hmem => hx (hmay k hk hmem)
    rw [h'.get?_eq k (hk.trans_le h.size_le) x hx', h.get?_eq k hk x hx]

lemma Keeps.mono (h : s.Keeps may s') (hmay : ∀ k, may k ⊆ may' k) : s.Keeps may' s' :=
  (Keeps.refl may' s).trans h fun k _ => hmay k

/-- A new environment leaves the others as they were. -/
lemma Keeps.create (may : ℕ → Set String) (s : Store) (outer : Option ℕ) :
    s.Keeps may (s.create outer).2 := by
  refine .of_frame?_eq (by simp) fun k hk => ?_
  rw [frame?_create, if_neg hk.ne]

/-- Binding a name that may be written. -/
lemma Keeps.set {env : ℕ} {name : String} (hname : name ∈ may env) (value : Value) :
    s.Keeps may (s.set env name value) where
  size_le := by simp
  frame?_eq k _ he := by
    have hne : env ≠ k := by
      rintro rfl
      simp [he] at hname
    rw [frame?_set, if_neg hne]
  outer?_eq k _ := by simp
  names_subset k hk := by
    rw [bindings_set hk]
    split
    · rw [Bindings.names_set]
      split
      · exact List.Subset.refl _
      · exact List.subset_append_left _ _
    · exact List.Subset.refl _
  get?_eq k hk x hx := by
    rw [bindings_set hk]
    split
    · next h =>
        have hne : name ≠ x := by
          rintro rfl
          exact hx (h ▸ hname)
        rw [Bindings.get?_set, if_neg hne]
    · rfl

lemma Keeps.setAll {env : ℕ} (henv : may env = Set.univ) (entries : List (String × Value))
    (s : Store) : s.Keeps may (s.setAll env entries) := by
  induction entries generalizing s with
  | nil => exact .refl may s
  | cons entry rest ih =>
      obtain ⟨name, value⟩ := entry
      exact (Keeps.set (by simp [henv]) value).trans (ih _) fun _ _ => subset_rfl

/-- Parameters are bound in a new environment, so every other one is as it was. -/
lemma Keeps.createWith (may : ℕ → Set String) (s : Store) (outer : ℕ)
    (entries : List (String × Value)) : s.Keeps may (s.createWith outer entries).2 := by
  have hset : (s.create (some outer)).2.Keeps (fun k => {_x | k = s.size})
      (s.createWith outer entries).2 := Keeps.setAll (by simp) entries _
  refine (Keeps.create may s (some outer)).trans hset fun k hk => ?_
  simp [hk.ne]

/-- Whatever is bound, the rest is kept. -/
lemma Keeps.set_any (s : Store) (env : ℕ) (name : String) (value : Value) :
    s.Keeps (fun _ => Set.univ) (s.set env name value) :=
  .set (Set.mem_univ name) value

lemma Keeps.setAll_any (s : Store) (env : ℕ) (entries : List (String × Value)) :
    s.Keeps (fun _ => Set.univ) (s.setAll env entries) :=
  .setAll rfl entries s

end Store

/-! ### Where a job may write -/

/-- The names that a job may write, by environment. -/
def Job.mayDefine : Job → ℕ → Set String
  | .expr _ env e => fun k => {x | k = env ∧ x ∈ e.directDefs}
  | .form _ env which parts => fun k => {x | k = env ∧ x ∈ Value.directDefsOfForm parts which}
  | .each _ env es => fun k => {x | k = env ∧ x ∈ Value.directDefsOfEach es}
  | .scope _ env _ _ => fun k => {_x | k = env}
  | .apply _ _ _ => fun _ => ∅

lemma writes_subset {env : ℕ} {names names' : List String} (h : names ⊆ names') (k : ℕ) :
    {x | k = env ∧ x ∈ names} ⊆ {x | k = env ∧ x ∈ names'} :=
  fun _ hx => ⟨hx.1, h hx.2⟩

/-- **A run writes only where its job may write**, whatever it comes to. -/
theorem Evaluates.keeps {limit : Int} {job : Job} {m : Machine} {r : Outcome}
    (h : Evaluates limit job m r) : m.store.Keeps job.mayDefine r.machine.store := by
  -- A scope and a call may write what they like in an environment of their own: its number is the
  -- size of the store before, so `k < size` leaves it out.
  induction h with
  | tooDeep | bound | unbound | constant | formTooDeep | nil | scopeName | primitiveTooDeep
  | arity | notCallable => exact .refl _ _
  | immediate | primitive =>
      rw [Outcome.machine_ofResult]
      exact .refl _ _
  | special _ hform _ _ ih =>
      simpa only [Job.mayDefine, Value.directDefs_form _ hform] using ih
  | headFault _ hform _ ih | argumentsTooDeep _ hform _ _ ih =>
      simp only [Job.mayDefine, Value.directDefs_application _ hform]
      exact ih.mono (writes_subset (List.subset_append_left _ _))
  | argumentsFault _ hform _ _ _ ih₁ ih₂ =>
      simp only [Job.mayDefine, Value.directDefs_application _ hform]
      exact (ih₁.mono (writes_subset (List.subset_append_left _ _))).trans ih₂
        fun k _ => writes_subset (List.subset_append_right _ _) k
  | application _ hform _ _ _ _ ih₁ ih₂ ih₃ =>
      simp only [Job.mayDefine, Value.directDefs_application _ hform]
      have hargs := (ih₁.mono (writes_subset (List.subset_append_left _ _))).trans ih₂
        fun k _ => writes_subset (List.subset_append_right _ _) k
      exact hargs.trans ih₃ fun k _ => Set.empty_subset _
  | define _ ih =>
      refine (ih.mono (writes_subset (List.subset_cons_self _ _))).trans
        (Store.Keeps.set ?_ _) fun k _ => subset_rfl
      exact ⟨rfl, List.mem_cons_self⟩
  | defineFault _ ih => exact ih.mono (writes_subset (List.subset_cons_self _ _))
  | letIn _ _ ih =>
      exact (Store.Keeps.create _ _ _).trans ih fun k hk x hx => absurd hx hk.ne
  | sequence _ ih | sequenceFault _ ih => exact ih
  | conditionFault _ _ ih | noBranch _ _ _ ih =>
      exact ih.mono (writes_subset (Value.directDefs_subset_of_mem List.mem_cons_self))
  | branch _ _ hchosen _ ih₁ ih₂ =>
      refine Store.Keeps.trans
        (ih₁.mono (writes_subset (Value.directDefs_subset_of_mem List.mem_cons_self))) ih₂
        fun k _ => writes_subset (Value.directDefs_subset_of_mem ?_) k
      exact List.mem_cons_of_mem _ (mem_of_chosen? hchosen)
  | firstFault _ ih => exact ih.mono (writes_subset (List.subset_append_left _ _))
  | restFault _ _ ih₁ ih₂ | cons _ _ ih₁ ih₂ =>
      exact (ih₁.mono (writes_subset (List.subset_append_left _ _))).trans ih₂
        fun k _ => writes_subset (List.subset_append_right _ _) k
  | scopeBody _ _ ih | scopeFault _ ih => exact ih.mono fun k x hx => hx.1
  | scopeBinding _ _ ih₁ ih₂ =>
      refine (ih₁.mono fun k x hx => hx.1).trans
        (Store.Keeps.trans (Store.Keeps.set ?_ _) ih₂ fun k _ => subset_rfl) fun k _ => subset_rfl
      exact rfl
  | refused | bodyTooDeep => exact .createWith _ _ _ _
  | bodyFault _ _ _ _ ih | call _ _ _ _ ih =>
      exact (Store.Keeps.createWith _ _ _ _).trans ih fun k hk x hx => absurd hx.1 hk.ne

/-! ### The frame law -/

/-- An application changes no environment that was there before it. -/
lemma applyIn_keeps (limit : Int) (room : Room) (f : Value) (args : List Value) (m : Machine) :
    m.store.Keeps (fun _ => ∅) (Outcome.machine (applyIn limit room f args m)).store :=
  (evaluates_applyIn limit room f args m).keeps

/-- A scope form changes no environment that was there before it. -/
lemma runIn_letIn_keeps (limit : Int) (room : Room) (env : ℕ) (parts : List Value) (m : Machine) :
    m.store.Keeps (fun _ => ∅)
      (Outcome.machine (runIn limit room env (.list (.sym "let*" :: parts)) m)).store := by
  have hform : SpecialForm.ofHead? (.sym "let*") = some .letIn := rfl
  have hdefs : (Value.list (.sym "let*" :: parts)).directDefs = [] :=
    Value.directDefs_form parts hform
  refine (evaluates_runIn limit room env _ m).keeps.mono fun k x hx => ?_
  exact absurd hx.2 (by simp [hdefs])

/-- **The frame law.** Whatever an evaluation comes to, every environment that was there before it
has its outer environment; every other one than the one of the evaluation is as it was; and that
one still binds what it bound, and differs only in names that the expression defines directly. A
scope form and an application leave every environment as it was. -/
theorem evaluation_writes_own_definitions (limit : Int) (room : Room) (m : Machine) :
    (∀ (env : ℕ) (e : Value), ∀ k < m.store.size,
      let s := (Outcome.machine (runIn limit room env e m)).store
      s.outer? k = m.store.outer? k ∧
      (k ≠ env → s.frame? k = m.store.frame? k) ∧
      (m.store.bindings k).names ⊆ (s.bindings k).names ∧
      ∀ x ∉ e.directDefs, (s.bindings k).get? x = (m.store.bindings k).get? x) ∧
    (∀ (env : ℕ) (parts : List Value), ∀ k < m.store.size,
      (Outcome.machine (runIn limit room env (.list (.sym "let*" :: parts)) m)).store.frame? k =
        m.store.frame? k) ∧
    ∀ (f : Value) (args : List Value), ∀ k < m.store.size,
      (Outcome.machine (applyIn limit room f args m)).store.frame? k = m.store.frame? k := by
  refine ⟨fun env e k hk => ?_, fun env parts k hk => ?_, fun f args k hk => ?_⟩
  · have hkeeps := (evaluates_runIn limit room env e m).keeps
    refine ⟨hkeeps.outer?_eq k hk, fun hne => hkeeps.frame?_eq k hk ?_,
      hkeeps.names_subset k hk, fun x hx => hkeeps.get?_eq k hk x fun h => hx h.2⟩
    exact Set.eq_empty_iff_forall_notMem.mpr fun x hx => hne hx.1
  · exact (runIn_letIn_keeps limit room env parts m).frame?_eq k hk rfl
  · exact (applyIn_keeps limit room f args m).frame?_eq k hk rfl

/-- A definition in a child environment leaves the root as it was, and a scope in it defines
nothing there. -/
theorem definition_leaves_root :
    let m : Machine := ⟨((Store.empty.create none).2.create (some 0)).2, 0, []⟩
    let inner : Value := .list [.sym "let*", .list [], .list [.sym "def!", .sym "y", .int 2]]
    let e : Value := .list [.sym "do", .list [.sym "def!", .sym "x", .int 1], inner]
    let s := (Outcome.machine (runIn 500 none 1 e m)).store
    s.frame? 0 = m.store.frame? 0 ∧ (s.bindings 1).get? "y" = (m.store.bindings 1).get? "y" := by
  intro m inner e s
  have hdefs : e.directDefs = ["x"] := rfl
  have hroot := (evaluation_writes_own_definitions 500 none m).1 1 e 0 (by decide)
  have hchild := (evaluation_writes_own_definitions 500 none m).1 1 e 1 (by decide)
  exact ⟨hroot.2.1 (by decide), hchild.2.2.2 "y" (by simp [hdefs])⟩

end TinyLisp
