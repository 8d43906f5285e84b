/-
Invariants of values that every run keeps.

A discipline says what may be evaluated, what may come out of it, and which
environments may be used, all by the number of environments that there are. It
has to allow what evaluation makes by itself: nil, booleans, integers and lists,
constants of the source, and closures of bodies from the source. Then a store
whose bindings keep the discipline does so after every run, and the value of a
run and the nested jobs on the way keep it too.

* `Discipline`: what may be evaluated and what may come out of it.
* `Store.Obeys`, `Job.Obeys`, `Outcome.Obeys`: what it is to keep a discipline.
* `apply_cases`, `closureOf_cases`: what primitives and function forms make.
* `Evaluates.obeys`, `Invokes.obeys`: runs and nested jobs keep every discipline.
-/
import TinyLisp.Proofs.FrameLaw

namespace TinyLisp

/-! ### Disciplines -/

/-- What may be evaluated and what may come out of it, by the number of environments. -/
structure Discipline where
  /-- Which environments may be used. -/
  env : ℕ → ℕ → Prop
  /-- Which expressions may be evaluated. -/
  source : ℕ → Value → Prop
  /-- Which values may come out. -/
  value : ℕ → Value → Prop
  env_mono {n n' k : ℕ} (h : n ≤ n') : env n k → env n' k
  source_mono {n n' : ℕ} {e : Value} (h : n ≤ n') : source n e → source n' e
  value_mono {n n' : ℕ} {v : Value} (h : n ≤ n') : value n v → value n' v
  env_new (n : ℕ) : env (n + 1) n
  value_nil (n : ℕ) : value n .nil
  value_bool (n : ℕ) (b : Bool) : value n (.bool b)
  value_int (n : ℕ) (z : ℤ) : value n (.int z)
  value_list {n : ℕ} {vs : List Value} : value n (.list vs) ↔ ∀ v ∈ vs, value n v
  value_closure {n k : ℕ} {params : List String} {body : Value} :
    value n (.closure params body k) ↔ env n k ∧ source n body
  value_constant {n : ℕ} {e : Value} (he : e.isConstant = true) : source n e → value n e
  source_item {n : ℕ} {es : List Value} {e : Value} (he : e ∈ es) :
    source n (.list es) → source n e

/-- A store that keeps a discipline: links lead to environments that could be used when they were
made, and every binding is to a value that may come out. -/
structure Store.Obeys (d : Discipline) (s : Store) : Prop where
  link : ∀ k outer, s.outer? k = some outer → d.env k outer
  value : ∀ k, ∀ entry ∈ s.bindings k, d.value s.size entry.2

/-- A job that keeps a discipline among `n` environments. -/
def Job.Obeys (d : Discipline) (n : ℕ) : Job → Prop
  | .expr _ env e => d.env n env ∧ d.source n e
  | .form _ env _ parts => d.env n env ∧ ∀ e ∈ parts, d.source n e
  | .each _ env es => d.env n env ∧ ∀ e ∈ es, d.source n e
  | .scope _ env bindings body => d.env n env ∧ (∀ e ∈ bindings, d.source n e) ∧ d.source n body
  | .apply _ f args => d.value n f ∧ ∀ v ∈ args, d.value n v

/-- An outcome that keeps a discipline. -/
structure Outcome.Obeys (d : Discipline) (r : Outcome) : Prop where
  store : r.machine.store.Obeys d
  value : ∀ v, r.result = .ok v → d.value r.machine.store.size v

/-! ### What primitives and function forms make -/

/-- What a mapped result comes from. -/
lemma exists_of_map_eq_ok {α β : Type} {x : Except Fault α} {g : α → β} {b : β}
    (h : x.map g = .ok b) : ∃ a, x = .ok a ∧ g a = b := by
  cases x with
  | error f => nomatch h
  | ok a => exact ⟨a, rfl, Except.ok.inj h⟩

lemma eq_ok_of_mapError_eq_ok {α ε : Type} {x : Except ε α} {g : ε → Fault} {a : α}
    (h : x.mapError g = .ok a) : x = .ok a := by
  cases x with
  | error f => cases h
  | ok b => exact congrArg Except.ok (Except.ok.inj h)

/-- A primitive makes an integer, a boolean or the list of its arguments. -/
lemma apply_cases {p : Primitive} {args : List Value} {v : Value} (h : p.apply args = .ok v) :
    (∃ z, v = .int z) ∨ (∃ b, v = .bool b) ∨ v = .list args := by
  cases p with
  | add | sub | mul | count =>
      obtain ⟨_, -, rfl⟩ := exists_of_map_eq_ok h
      exact .inl ⟨_, rfl⟩
  | div =>
      rw [Primitive.apply] at h
      cases hargs : Primitive.div.twoIntegers args with
      | error f => rw [hargs] at h; nomatch h
      | ok ab =>
          rw [hargs] at h
          obtain ⟨_, -, rfl⟩ := exists_of_map_eq_ok h
          exact .inl ⟨_, rfl⟩
  | equal | less | lessEqual | greater | greaterEqual | isList | isEmpty =>
      obtain ⟨_, -, rfl⟩ := exists_of_map_eq_ok h
      exact .inr (.inl ⟨_, rfl⟩)
  | list => exact .inr (.inr (Except.ok.inj h).symm)

/-- A function form makes a closure of its body in the environment of the form. -/
lemma closureOf_cases {room : Room} {env : ℕ} {parts : List Value} {v : Value}
    (h : closureOf room env parts = .ok v) :
    ∃ params body names, parts = [.list params, body] ∧ v = .closure names body env := by
  unfold closureOf at h
  split at h
  · next params body =>
      obtain ⟨names, -, hv⟩ := exists_of_map_eq_ok h
      exact ⟨params, body, names, rfl, hv.symm⟩
  · nomatch h
  · nomatch h

/-- The only forms with an immediate value are function forms. -/
lemma closureOf_of_immediate? {room : Room} {env : ℕ} {form : SpecialForm} {parts : List Value}
    {v : Value} (h : form.immediate? room env parts = some (.ok v)) :
    closureOf room env parts = .ok v := by
  unfold SpecialForm.immediate? at h
  split at h
  case h_11 => exact Option.some.inj h
  case h_4 => split at h <;> nomatch h
  all_goals nomatch h

/-- A list of symbols is a parameter list, -/
lemma paramNames_map_sym (room : Room) (names : List String) :
    paramNames room (names.map .sym) = .ok names := by
  induction names with
  | nil => rfl
  | cons name rest ih => rw [List.map_cons, paramNames, ih]; rfl

/-- and no other list is. -/
lemma eq_map_sym_of_paramNames {room : Room} {params : List Value} {names : List String}
    (h : paramNames room params = .ok names) : params = names.map .sym := by
  induction params generalizing names with
  | nil => rw [← Except.ok.inj h, List.map_nil]
  | cons param rest ih =>
      cases param with
      | sym name =>
          obtain ⟨others, hrest, rfl⟩ := exists_of_map_eq_ok h
          rw [ih hrest, List.map_cons]
      | _ => cases h

/-- An immediate value is the closure of a function form. -/
lemma SpecialForm.immediate?_ok_cases {room : Room} {env : ℕ} {form : SpecialForm}
    {parts : List Value} {v : Value} (h : form.immediate? room env parts = some (.ok v)) :
    form = .function ∧ ∃ params body names, parts = [.list params, body] ∧
      paramNames room params = .ok names ∧ v = .closure names body env := by
  have hclosure := closureOf_of_immediate? h
  obtain ⟨params, body, names, rfl, rfl⟩ := closureOf_cases hclosure
  obtain ⟨names', hnames, hv⟩ := exists_of_map_eq_ok hclosure
  obtain ⟨rfl, -, -⟩ := Value.closure.inj hv
  refine ⟨?_, params, body, names', rfl, hnames, rfl⟩
  cases form with
  | function => rfl
  | letIn =>
      rw [immediate?] at h
      split at h <;> cases h
  | define | sequence | choose => cases h

/-! ### Stores that keep a discipline -/

namespace Store

namespace Obeys

variable {d : Discipline} {s : Store}

/-- The store with one environment, which has no bindings. -/
lemma root (d : Discipline) : (Store.empty.create none).2.Obeys d where
  link k outer hlink := by
    have hempty : Store.empty.outer? k = none := rfl
    rw [outer?_create, hempty, ite_self] at hlink
    nomatch hlink
  value k entry hentry := by
    rw [bindings_create] at hentry
    nomatch hentry

/-- What a name means may come out. -/
lemma get? (h : s.Obeys d) {env : ℕ} {name : String} {v : Value}
    (hv : s.get? env name = some v) : d.value s.size v :=
  BindsOnly.get? h.value hv

lemma set (h : s.Obeys d) (env : ℕ) (name : String) {v : Value} (hv : d.value s.size v) :
    (s.set env name v).Obeys d where
  link k outer hlink := h.link k outer (by rwa [outer?_set] at hlink)
  value := by
    rw [size_set]
    exact BindsOnly.set h.value env name hv

lemma create (h : s.Obeys d) {outer : ℕ} (houter : d.env s.size outer) :
    (s.create (some outer)).2.Obeys d where
  link k outer' hlink := by
    rw [outer?_create] at hlink
    split at hlink
    · next hk => rwa [hk, ← Option.some.inj hlink]
    · exact h.link k outer' hlink
  value := by
    rw [size_create]
    exact BindsOnly.create (BindsOnly.mono h.value fun _ => d.value_mono (Nat.le_succ _)) _

lemma setAll (h : s.Obeys d) (env : ℕ) (entries : List (String × Value))
    (hentries : ∀ entry ∈ entries, d.value s.size entry.2) : (s.setAll env entries).Obeys d := by
  induction entries generalizing s with
  | nil => exact h
  | cons entry rest ih =>
      refine ih (h.set env entry.1 (hentries entry List.mem_cons_self)) fun other hother => ?_
      rw [size_set]
      exact hentries other (List.mem_cons_of_mem _ hother)

lemma createWith (h : s.Obeys d) {outer : ℕ} (houter : d.env s.size outer)
    {params : List String} {args : List Value} (hargs : ∀ v ∈ args, d.value s.size v) :
    (s.createWith outer (params.zip args)).2.Obeys d := by
  refine (h.create houter).setAll _ _ fun entry hentry => ?_
  rw [size_create]
  exact d.value_mono (Nat.le_succ _) (hargs entry.2 (List.of_mem_zip hentry).2)

end Obeys

end Store

/-! ### Jobs that keep a discipline -/

section

variable {d : Discipline} {n : ℕ}

lemma Job.Obeys.mono {n' : ℕ} {job : Job} (h : job.Obeys d n) (hle : n ≤ n') : job.Obeys d n' := by
  cases job with
  | expr room env e => exact ⟨d.env_mono hle h.1, d.source_mono hle h.2⟩
  | form room env which parts =>
      exact ⟨d.env_mono hle h.1, fun e he => d.source_mono hle (h.2 e he)⟩
  | each room env es => exact ⟨d.env_mono hle h.1, fun e he => d.source_mono hle (h.2 e he)⟩
  | scope room env bindings body =>
      exact ⟨d.env_mono hle h.1, fun e he => d.source_mono hle (h.2.1 e he),
        d.source_mono hle h.2.2⟩
  | apply room f args =>
      exact ⟨d.value_mono hle h.1, fun v hv => d.value_mono hle (h.2 v hv)⟩

/-- The head of a list expression. -/
lemma Job.Obeys.head {room room' : Room} {env : ℕ} {head : Value} {tail : List Value}
    (h : (Job.expr room env (.list (head :: tail))).Obeys d n) :
    (Job.expr room' env head).Obeys d n :=
  ⟨h.1, d.source_item List.mem_cons_self h.2⟩

/-- The other items of a list expression, as arguments or as the parts of a form. -/
lemma Job.Obeys.tail {room : Room} {env : ℕ} {head : Value} {tail : List Value}
    (h : (Job.expr room env (.list (head :: tail))).Obeys d n) :
    d.env n env ∧ ∀ e ∈ tail, d.source n e :=
  ⟨h.1, fun _ he => d.source_item (List.mem_cons_of_mem _ he) h.2⟩

/-- The arguments are evaluated after the head. -/
lemma Job.Obeys.arguments {room : Room} {env n' : ℕ} {es : List Value}
    (h : d.env n env ∧ ∀ e ∈ es, d.source n e) (hle : n ≤ n') : (Job.each room env es).Obeys d n' :=
  ⟨d.env_mono hle h.1, fun e he => d.source_mono hle (h.2 e he)⟩

/-- Some expressions without the first. -/
lemma Job.Obeys.rest {room : Room} {env : ℕ} {e : Value} {es : List Value}
    (h : (Job.each room env (e :: es)).Obeys d n) : (Job.each room env es).Obeys d n :=
  ⟨h.1, fun e' he' => h.2 e' (List.mem_cons_of_mem _ he')⟩

/-- A scope starts in the environment that was made for it. -/
lemma Job.Obeys.letIn {room : Room} {env : ℕ} {bindings : List Value} {body : Value}
    (h : (Job.form room env .letIn [.list bindings, body]).Obeys d n) :
    (Job.scope room n bindings body).Obeys d (n + 1) := by
  have hbindings : d.source n (.list bindings) := h.2 _ List.mem_cons_self
  have hbody : d.source n body := h.2 _ (List.mem_cons_of_mem _ List.mem_cons_self)
  have hle : n ≤ n + 1 := Nat.le_succ n
  exact ⟨d.env_new n, fun e he => d.source_mono hle (d.source_item he hbindings),
    d.source_mono hle hbody⟩

/-- A branch is one of the parts of its form. -/
lemma Job.Obeys.branch {room : Room} {env : ℕ} {condition c e : Value} {branches : List Value}
    (h : (Job.form room env .choose (condition :: branches)).Obeys d n)
    (hchosen : chosen? c branches = some e) : (Job.expr room env e).Obeys d n :=
  ⟨h.1, h.2 e (List.mem_cons_of_mem _ (mem_of_chosen? hchosen))⟩

/-- The bindings of a scope: the first value, and the scope that is left. -/
lemma Job.Obeys.scope {room : Room} {env : ℕ} {key e body : Value} {rest : List Value}
    (h : (Job.scope room env (key :: e :: rest) body).Obeys d n) :
    (Job.expr room env e).Obeys d n ∧ (Job.scope room env rest body).Obeys d n := by
  have htail : ∀ e' ∈ e :: rest, d.source n e' := fun e' he' =>
    h.2.1 e' (List.mem_cons_of_mem _ he')
  exact ⟨⟨h.1, htail e List.mem_cons_self⟩, h.1,
    fun e' he' => htail e' (List.mem_cons_of_mem _ he'), h.2.2⟩

/-- A body starts in the environment that was made for the call. -/
lemma Job.Obeys.body {room room' : Room} {params : List String} {body : Value} {env : ℕ}
    {args : List Value} (h : (Job.apply room (.closure params body env) args).Obeys d n) :
    (Job.expr room' n body).Obeys d (n + 1) :=
  ⟨d.env_new n, d.source_mono (Nat.le_succ n) (d.value_closure.mp h.1).2⟩

/-- The last of some values. -/
lemma Discipline.value_getLastD (d : Discipline) {vs : List Value} (h : ∀ v ∈ vs, d.value n v) :
    d.value n (vs.getLastD .nil) :=
  List.forall_mem_cons.mpr ⟨d.value_nil n, h⟩ _ List.getLastD_mem_cons

end

/-! ### Runs keep every discipline -/

section

variable {d : Discipline} {m : Machine}

lemma Outcome.Obeys.ok {v : Value} (hs : m.store.Obeys d) (hv : d.value m.store.size v) :
    Outcome.Obeys d (.ok v m) where
  store := hs
  value w hw := by rwa [← Except.ok.inj hw]

lemma Outcome.Obeys.error {f : Fault} (hs : m.store.Obeys d) : Outcome.Obeys d (.error f m) where
  store := hs
  value _ hw := nomatch hw

lemma Outcome.Obeys.ofResult {result : Except Fault Value} (hs : m.store.Obeys d)
    (h : ∀ v, result = .ok v → d.value m.store.size v) : Outcome.Obeys d (.ofResult result m) := by
  cases result with
  | ok v => exact .ok hs (h v rfl)
  | error f => exact .error hs

/-- The value of a finished part. -/
lemma Outcome.Obeys.value_ok {v : Value} (h : Outcome.Obeys d (.ok v m)) :
    d.value m.store.size v :=
  h.value v rfl

/-- The body of a call on the machine of the call. -/
lemma Job.Obeys.body_enter {room room' : Room} {params : List String} {body : Value} {env : ℕ}
    {args : List Value}
    (h : (Job.apply room (.closure params body env) args).Obeys d m.store.size) :
    (Job.expr room' m.store.size body).Obeys d
      (m.pushArguments env params args).enter.store.size := by
  have hsize : (m.pushArguments env params args).enter.store.size = m.store.size + 1 :=
    Store.size_createWith _ _ _
  rw [hsize]
  exact h.body

/-- The call machine keeps a discipline before the body starts. -/
lemma Store.Obeys.pushArguments {room : Room} {params : List String} {body : Value} {env : ℕ}
    {args : List Value} (hs : m.store.Obeys d)
    (h : (Job.apply room (.closure params body env) args).Obeys d m.store.size) :
    (m.pushArguments env params args).store.Obeys d :=
  hs.createWith (d.value_closure.mp h.1).1 h.2

end

/-- Runs only add environments. -/
lemma Evaluates.size_le {limit : Int} {job : Job} {m : Machine} {r : Outcome}
    (h : Evaluates limit job m r) : m.store.size ≤ r.machine.store.size :=
  h.keeps.size_le

/-- **Every discipline is kept** by every run, with a value or with a fault. -/
theorem Evaluates.obeys {d : Discipline} {limit : Int} {job : Job} {m : Machine} {r : Outcome}
    (h : Evaluates limit job m r) (hs : m.store.Obeys d) (hjob : job.Obeys d m.store.size) :
    Outcome.Obeys d r := by
  -- a part meets the store that the parts before it left, which has no fewer environments than the
  -- one that the whole met
  induction h with
  | tooDeep | unbound | formTooDeep | scopeName | primitiveTooDeep | arity | notCallable =>
      exact .error hs
  | bound _ hv => exact .ok hs (hs.get? hv)
  | constant _ he => exact .ok hs (d.value_constant he hjob.2)
  | special _ _ _ _ ih => exact ih hs hjob.tail
  | headFault _ _ _ ih => exact ih hs hjob.head
  | argumentsTooDeep _ _ _ _ ih => exact .error (ih hs hjob.head).store
  | argumentsFault _ _ hhead _ _ ih₁ ih₂ =>
      have hf := ih₁ hs hjob.head
      exact ih₂ hf.store (Job.Obeys.arguments hjob.tail hhead.size_le)
  | application _ _ hhead _ hargs _ ih₁ ih₂ ih₃ =>
      have hf := ih₁ hs hjob.head
      have hvs := ih₂ hf.store (Job.Obeys.arguments hjob.tail hhead.size_le)
      exact ih₃ hvs.store ⟨d.value_mono hargs.size_le hf.value_ok, d.value_list.mp hvs.value_ok⟩
  | immediate h =>
      refine .ofResult hs fun v hv => ?_
      rw [hv] at h
      obtain ⟨params, body, names, rfl, rfl⟩ := closureOf_cases (closureOf_of_immediate? h)
      exact d.value_closure.mpr ⟨hjob.1, hjob.2 body (by simp)⟩
  | define _ ih =>
      have hv := ih hs ⟨hjob.1, hjob.2 _ (by simp)⟩
      refine .ok (hv.store.set _ _ hv.value_ok) ?_
      rw [Machine.bind, Store.size_set]
      exact hv.value_ok
  | defineFault _ ih => exact ih hs ⟨hjob.1, hjob.2 _ (by simp)⟩
  | letIn _ _ ih =>
      refine ih (hs.create hjob.1) ?_
      rw [Machine.pushScope, Store.size_create]
      exact hjob.letIn
  | sequence _ ih =>
      have hvs := ih hs hjob
      exact .ok hvs.store (d.value_getLastD (d.value_list.mp hvs.value_ok))
  | sequenceFault _ ih => exact ih hs hjob
  | conditionFault _ _ ih => exact ih hs ⟨hjob.1, hjob.2 _ List.mem_cons_self⟩
  | branch _ hcond hchosen _ ih₁ ih₂ =>
      have hc := ih₁ hs ⟨hjob.1, hjob.2 _ List.mem_cons_self⟩
      exact ih₂ hc.store ((hjob.branch hchosen).mono hcond.size_le)
  | noBranch _ _ _ ih =>
      have hc := ih hs ⟨hjob.1, hjob.2 _ List.mem_cons_self⟩
      exact .ok hc.store (d.value_nil _)
  | nil => exact .ok hs (d.value_list.mpr (by simp))
  | firstFault _ ih => exact ih hs ⟨hjob.1, hjob.2 _ List.mem_cons_self⟩
  | restFault hfirst _ ih₁ ih₂ =>
      have hv := ih₁ hs ⟨hjob.1, hjob.2 _ List.mem_cons_self⟩
      exact ih₂ hv.store (Job.Obeys.mono hjob.rest hfirst.size_le)
  | cons hfirst hrest ih₁ ih₂ =>
      have hv := ih₁ hs ⟨hjob.1, hjob.2 _ List.mem_cons_self⟩
      have hvs := ih₂ hv.store (Job.Obeys.mono hjob.rest hfirst.size_le)
      refine .ok hvs.store (d.value_list.mpr fun w hw => ?_)
      rcases List.mem_cons.mp hw with rfl | hw
      · exact d.value_mono hrest.size_le hv.value_ok
      · exact d.value_list.mp hvs.value_ok w hw
  | scopeBody _ _ ih => exact ih hs ⟨hjob.1, hjob.2.2⟩
  | scopeFault _ ih => exact ih hs hjob.scope.1
  | scopeBinding hvalue _ ih₁ ih₂ =>
      have hv := ih₁ hs hjob.scope.1
      refine ih₂ (hv.store.set _ _ hv.value_ok) ?_
      rw [Machine.bind, Store.size_set]
      exact hjob.scope.2.mono hvalue.size_le
  | primitive =>
      refine .ofResult hs fun v hv => ?_
      rcases apply_cases hv with ⟨z, rfl⟩ | ⟨b, rfl⟩ | rfl
      · exact d.value_int _ z
      · exact d.value_bool _ b
      · exact d.value_list.mpr hjob.2
  | refused | bodyTooDeep => exact .error (hs.pushArguments hjob)
  | bodyFault _ _ _ _ ih =>
      have hbody := ih (hs.pushArguments hjob) hjob.body_enter
      exact .error hbody.store
  | call _ _ _ _ ih =>
      have hbody := ih (hs.pushArguments hjob) hjob.body_enter
      exact .ok hbody.store hbody.value_ok

/-- **Every discipline is kept** by nested jobs, on the machines that they start on. -/
theorem Invokes.obeys {d : Discipline} {limit : Int} {c c' : Job × Machine}
    (h : Invokes limit c c') (hs : c.2.store.Obeys d) (hjob : c.1.Obeys d c.2.store.size) :
    c'.2.store.Obeys d ∧ c'.1.Obeys d c'.2.store.size := by
  cases h with
  | special => exact ⟨hs, hjob.tail⟩
  | head => exact ⟨hs, hjob.head⟩
  | arguments _ _ hhead _ =>
      have hf := hhead.obeys hs hjob.head
      exact ⟨hf.store, .arguments hjob.tail hhead.size_le⟩
  | application _ _ hhead _ hargs =>
      have hf := hhead.obeys hs hjob.head
      have hvs := hargs.obeys hf.store (.arguments hjob.tail hhead.size_le)
      exact ⟨hvs.store, d.value_mono hargs.size_le hf.value_ok, d.value_list.mp hvs.value_ok⟩
  | define => exact ⟨hs, hjob.1, hjob.2 _ (by simp)⟩
  | letIn =>
      refine ⟨hs.create hjob.1, ?_⟩
      rw [Machine.pushScope, Store.size_create]
      exact hjob.letIn
  | sequence => exact ⟨hs, hjob⟩
  | condition => exact ⟨hs, hjob.1, hjob.2 _ List.mem_cons_self⟩
  | branch _ hcond hchosen =>
      have hc := hcond.obeys hs ⟨hjob.1, hjob.2 _ List.mem_cons_self⟩
      exact ⟨hc.store, (hjob.branch hchosen).mono hcond.size_le⟩
  | first => exact ⟨hs, hjob.1, hjob.2 _ List.mem_cons_self⟩
  | rest hfirst =>
      have hv := hfirst.obeys hs ⟨hjob.1, hjob.2 _ List.mem_cons_self⟩
      exact ⟨hv.store, hjob.rest.mono hfirst.size_le⟩
  | scopeBody => exact ⟨hs, hjob.1, hjob.2.2⟩
  | scopeValue => exact ⟨hs, hjob.scope.1⟩
  | scopeRest hvalue =>
      have hv := hvalue.obeys hs hjob.scope.1
      refine ⟨hv.store.set _ _ hv.value_ok, ?_⟩
      rw [Machine.bind, Store.size_set]
      exact hjob.scope.2.mono hvalue.size_le
  | body => exact ⟨hs.pushArguments hjob, hjob.body_enter⟩

end TinyLisp
