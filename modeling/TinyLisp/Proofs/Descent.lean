/-
Every chain of nested jobs ends.

The recursion of evaluation is not on the expression: a small application jumps
to the body of a closure, which may be larger. What descends is a pair, the call
frames that the limit still leaves and then the size of what is evaluated: a body
is evaluated with one frame less, and every other nested job is smaller while the
frames stay the same, because a finished job has closed its own.

* `Invokes`: one job is started by another, on the machine that the jobs before
  it left.
* `Job.size`, `descentMeasure`: the size of a job, and the pair that descends.
* `Invokes.measure_lt`, `not_invokes_forever`: the pair descends, so no chain of
  jobs goes on for ever.
* `exists_evaluates`: every job has an outcome.
-/
import TinyLisp.Proofs.Rules

namespace TinyLisp

/-! ### Nested jobs -/

/-- A job on a machine starts another one, on the machine that its earlier jobs left. -/
inductive Invokes (limit : Int) : Job × Machine → Job × Machine → Prop where
  | special {room env head tail form m} (hroom : room.fits 1 = true)
      (hform : SpecialForm.ofHead? head = some form) (hinner : (room.less 1).fits 1 = true) :
    Invokes limit (.expr room env (.list (head :: tail)), m)
      (.form ((room.less 1).less 1) env form tail, m)
  | head {room env head tail m} (hroom : room.fits 1 = true)
      (hform : SpecialForm.ofHead? head = none) :
    Invokes limit (.expr room env (.list (head :: tail)), m) (.expr (room.less 1) env head, m)
  | arguments {room env head tail m f m₁} (hroom : room.fits 1 = true)
      (hform : SpecialForm.ofHead? head = none)
      (hhead : Evaluates limit (.expr (room.less 1) env head) m (.ok f m₁))
      (hinner : (room.less 1).fits 1 = true) :
    Invokes limit (.expr room env (.list (head :: tail)), m)
      (.each ((room.less 1).less 1) env tail, m₁)
  | application {room env head tail m f m₁ args m₂} (hroom : room.fits 1 = true)
      (hform : SpecialForm.ofHead? head = none)
      (hhead : Evaluates limit (.expr (room.less 1) env head) m (.ok f m₁))
      (hinner : (room.less 1).fits 1 = true)
      (hargs : Evaluates limit (.each ((room.less 1).less 1) env tail) m₁ (.ok (.list args) m₂)) :
    Invokes limit (.expr room env (.list (head :: tail)), m) (.apply (room.less 1) f args, m₂)
  | define {room env name e m} :
    Invokes limit (.form room env .define [.sym name, e], m) (.expr room env e, m)
  | letIn {room env bindings body m} (heven : bindings.length % 2 = 0) :
    Invokes limit (.form room env .letIn [.list bindings, body], m)
      (.scope room m.store.size bindings body, m.pushScope env)
  | sequence {room env parts m} :
    Invokes limit (.form room env .sequence parts, m) (.each room env parts, m)
  | condition {room env condition branches m}
      (hlen : branches.length = 1 ∨ branches.length = 2) :
    Invokes limit (.form room env .choose (condition :: branches), m) (.expr room env condition, m)
  | branch {room env condition branches m c m₁ e}
      (hlen : branches.length = 1 ∨ branches.length = 2)
      (hcond : Evaluates limit (.expr room env condition) m (.ok c m₁))
      (hchosen : chosen? c branches = some e) :
    Invokes limit (.form room env .choose (condition :: branches), m) (.expr room env e, m₁)
  | first {room env e rest m} :
    Invokes limit (.each room env (e :: rest), m) (.expr room env e, m)
  | rest {room env e rest m v m₁} (hfirst : Evaluates limit (.expr room env e) m (.ok v m₁)) :
    Invokes limit (.each room env (e :: rest), m) (.each room env rest, m₁)
  | scopeBody {room env bindings body m} (hlen : bindings.length < 2) :
    Invokes limit (.scope room env bindings body, m) (.expr room env body, m)
  | scopeValue {room env name e rest body m} :
    Invokes limit (.scope room env (.sym name :: e :: rest) body, m) (.expr room env e, m)
  | scopeRest {room env name e rest body m v m₁}
      (hvalue : Evaluates limit (.expr room env e) m (.ok v m₁)) :
    Invokes limit (.scope room env (.sym name :: e :: rest) body, m)
      (.scope room env rest body, m₁.bind env name v)
  | body {room params body env args m} (hlen : params.length = args.length)
      (hdepth : (m.depth : Int) < limit) (hroom : room.fits 2 = true) :
    Invokes limit (.apply room (.closure params body env) args, m)
      (.expr (room.less 2) m.store.size body, (m.pushArguments env params args).enter)

/-! ### What descends -/

mutual

/-- The size of an expression: one for every atom, every list and every place in a list. The body
of a closure does not count. -/
def Value.size : Value → ℕ
  | .list items => 1 + Value.sizeAll items
  | _ => 1

/-- The size of a list of expressions. -/
def Value.sizeAll : List Value → ℕ
  | [] => 0
  | v :: rest => 1 + v.size + Value.sizeAll rest

end

lemma Value.size_pos (v : Value) : 0 < v.size := by
  cases v <;> simp [Value.size]

lemma Value.size_lt_sizeAll {v : Value} {items : List Value} (h : v ∈ items) :
    v.size < Value.sizeAll items := by
  induction items with
  | nil => exact absurd h (by simp)
  | cons w rest ih =>
      rw [Value.sizeAll]
      rcases List.mem_cons.mp h with rfl | h
      · omega
      · have := ih h
        omega

/-- The size of a job. -/
def Job.size : Job → ℕ
  | .expr _ _ e => e.size
  | .form _ _ _ parts => 1 + Value.sizeAll parts
  | .each _ _ es => Value.sizeAll es
  | .scope _ _ bindings body => 1 + Value.sizeAll bindings + body.size
  | .apply _ _ _ => 0

/-- The call frames that the limit leaves, and the size of the job. -/
def descentMeasure (limit : Int) (c : Job × Machine) : ℕ × ℕ :=
  (budgetAt limit c.2.depth, c.1.size)

lemma mem_of_chosen? {c e : Value} {branches : List Value} (h : chosen? c branches = some e) :
    e ∈ branches := by
  cases branches with
  | nil => exact absurd h (by simp [chosen?])
  | cons consequent rest =>
      rw [chosen?] at h
      split at h
      · rw [← Option.some.inj h]
        exact List.mem_cons_self
      · exact List.mem_cons_of_mem _ (List.mem_of_head? h)

/-- A job that starts at the same depth and is smaller comes later. -/
lemma measure_lt_of_size_lt {limit : Int} {job job' : Job} {m m' : Machine}
    (hdepth : m'.depth = m.depth) (hsize : job'.size < job.size) :
    Prod.Lex (· < ·) (· < ·) (descentMeasure limit (job', m')) (descentMeasure limit (job, m)) := by
  rw [descentMeasure, descentMeasure, hdepth]
  exact Prod.Lex.right _ hsize

/-- One frame more leaves less of the budget. -/
lemma budgetAt_succ_lt {limit : Int} {depth : ℕ} (h : (depth : Int) < limit) :
    budgetAt limit (depth + 1) < budgetAt limit depth := by
  rw [budgetAt, budgetAt]
  omega

/-- **The descent**: a nested job leaves a smaller budget, or it is smaller itself. -/
theorem Invokes.measure_lt {limit : Int} {c c' : Job × Machine} (h : Invokes limit c c') :
    Prod.Lex (· < ·) (· < ·) (descentMeasure limit c') (descentMeasure limit c) := by
  cases h with
  | special | head | define | letIn | sequence | condition | first | scopeBody | scopeValue =>
      refine measure_lt_of_size_lt rfl ?_
      simp only [Job.size, Value.size, Value.sizeAll]
      omega
  | arguments _ _ hhead =>
      refine measure_lt_of_size_lt hhead.depth_eq ?_
      simp only [Job.size, Value.size, Value.sizeAll]
      omega
  | application _ _ hhead _ hargs =>
      exact measure_lt_of_size_lt (hargs.depth_eq.trans hhead.depth_eq) (Value.size_pos _)
  | branch _ hcond hchosen =>
      have hsize := Value.size_lt_sizeAll (mem_of_chosen? hchosen)
      refine measure_lt_of_size_lt hcond.depth_eq ?_
      simp only [Job.size, Value.sizeAll]
      omega
  | rest hfirst =>
      refine measure_lt_of_size_lt hfirst.depth_eq ?_
      simp only [Job.size, Value.sizeAll]
      omega
  | scopeRest hvalue =>
      refine measure_lt_of_size_lt hvalue.depth_eq ?_
      simp only [Job.size, Value.sizeAll]
      omega
  | body _ hdepth => exact Prod.Lex.left _ _ (budgetAt_succ_lt hdepth)

/-- Nesting of jobs is well founded. -/
lemma wellFounded_invokes (limit : Int) : WellFounded fun c' c => Invokes limit c c' :=
  Subrelation.wf Invokes.measure_lt
    (InvImage.wf (descentMeasure limit) (WellFounded.prod_lex wellFounded_lt wellFounded_lt))

/-- No chain of nested jobs goes on for ever. -/
lemma not_invokes_forever (limit : Int) (chain : ℕ → Job × Machine) :
    ¬ ∀ n, Invokes limit (chain n) (chain (n + 1)) := fun h =>
  (wellFounded_iff_isEmpty_descending_chain.mp (wellFounded_invokes limit)).false ⟨chain, h⟩

/-! ### Every job has an outcome -/

/-- What a list of expressions comes to is a list of values. -/
lemma Evaluates.exists_list {limit : Int} {room : Room} {env : ℕ} {es : List Value} {v : Value}
    {m m₁ : Machine} (h : Evaluates limit (.each room env es) m (.ok v m₁)) :
    ∃ vs, v = .list vs := by
  cases h with
  | nil => exact ⟨[], rfl⟩
  | cons => exact ⟨_, rfl⟩

/-- The host has room for what a primitive does, or it has not, whatever the machine. -/
lemma roomForPrimitive_eq (room : Room) (p : Primitive) (args : List Value) :
    roomForPrimitive room p args = pure () ∨
      roomForPrimitive room p args = throw .stackDepth := by
  unfold roomForPrimitive
  split
  · cases room with
    | none => exact .inl rfl
    | some left =>
        rw [needRoom, Room.inside]
        split
        · exact .inl rfl
        · exact .inr rfl
  · exact .inl rfl

/-- The room that a primitive has on one machine it has on every machine, -/
lemma roomForPrimitive_ok {room : Room} {p : Primitive} {args : List Value} {m : Machine}
    (h : roomForPrimitive room p args m = .ok () m) (m' : Machine) :
    roomForPrimitive room p args m' = .ok () m' := by
  rcases roomForPrimitive_eq room p args with heq | heq
  · rw [heq]
    rfl
  · rw [heq] at h
    nomatch h

/-- and what it lacks on one machine it lacks on every machine. -/
lemma roomForPrimitive_error {room : Room} {p : Primitive} {args : List Value} {m : Machine}
    (h : roomForPrimitive room p args m = .error .stackDepth m) (m' : Machine) :
    roomForPrimitive room p args m' = .error .stackDepth m' := by
  rcases roomForPrimitive_eq room p args with heq | heq
  · rw [heq] at h
    nomatch h
  · rw [heq]
    rfl

section

variable {limit : Int} {room : Room} {env : ℕ} {m : Machine}

/-- An application has an outcome once its head, its arguments and the call have one. -/
lemma exists_of_application {head : Value} {tail : List Value} (hroom : room.fits 1 = true)
    (hform : SpecialForm.ofHead? head = none)
    (ih : ∀ c', Invokes limit (.expr room env (.list (head :: tail)), m) c' →
      ∃ r, Evaluates limit c'.1 c'.2 r) :
    ∃ r, Evaluates limit (.expr room env (.list (head :: tail))) m r := by
  obtain ⟨r₁, h₁⟩ := ih _ (.head hroom hform)
  cases r₁ with
  | error f m₁ => exact ⟨_, .headFault hroom hform h₁⟩
  | ok f m₁ =>
      cases hinner : (room.less 1).fits 1 with
      | false => exact ⟨_, .argumentsTooDeep hroom hform h₁ hinner⟩
      | true =>
          obtain ⟨r₂, h₂⟩ := ih _ (.arguments hroom hform h₁ hinner)
          cases r₂ with
          | error g m₂ => exact ⟨_, .argumentsFault hroom hform h₁ hinner h₂⟩
          | ok v m₂ =>
              obtain ⟨args, rfl⟩ := h₂.exists_list
              obtain ⟨r, h₃⟩ := ih _ (.application hroom hform h₁ hinner h₂)
              exact ⟨r, .application hroom hform h₁ hinner h₂ h₃⟩

/-- An expression has an outcome once the jobs that it starts have one. -/
lemma exists_of_expr {e : Value}
    (ih : ∀ c', Invokes limit (.expr room env e, m) c' → ∃ r, Evaluates limit c'.1 c'.2 r) :
    ∃ r, Evaluates limit (.expr room env e) m r := by
  cases hroom : room.fits 1 with
  | false => exact ⟨_, .tooDeep hroom⟩
  | true =>
      match e with
      | .sym name =>
          cases hv : m.store.get? env name with
          | none => exact ⟨_, .unbound hroom hv⟩
          | some v => exact ⟨_, .bound hroom hv⟩
      | .list (head :: tail) =>
          cases hform : SpecialForm.ofHead? head with
          | none => exact exists_of_application hroom hform ih
          | some form =>
              cases hinner : (room.less 1).fits 1 with
              | false => exact ⟨_, .formTooDeep hroom hform hinner⟩
              | true =>
                  obtain ⟨r, h⟩ := ih _ (.special hroom hform hinner)
                  exact ⟨r, .special hroom hform hinner h⟩
      | .list [] | .nil | .bool _ | .int _ | .str _ | .kw _ | .builtin _ | .closure _ _ _
      | .foreign _ => exact ⟨_, .constant hroom rfl⟩

/-- A special form has an outcome once the jobs that it starts have one. -/
lemma exists_of_form {form : SpecialForm} {parts : List Value}
    (ih : ∀ c', Invokes limit (.form room env form parts, m) c' →
      ∃ r, Evaluates limit c'.1 c'.2 r) :
    ∃ r, Evaluates limit (.form room env form parts) m r := by
  cases h : form.immediate? room env parts with
  | some result => exact ⟨_, .immediate h⟩
  | none =>
      cases form with
      | define =>
          obtain ⟨name, e, rfl⟩ := SpecialForm.parts_of_define h
          obtain ⟨r, hvalue⟩ := ih _ .define
          cases r with
          | error f m₁ => exact ⟨_, .defineFault hvalue⟩
          | ok v m₁ => exact ⟨_, .define hvalue⟩
      | letIn =>
          obtain ⟨bindings, body, rfl, heven⟩ := SpecialForm.parts_of_letIn h
          obtain ⟨r, hscope⟩ := ih _ (.letIn heven)
          exact ⟨r, .letIn heven hscope⟩
      | sequence =>
          obtain ⟨r, heach⟩ := ih _ .sequence
          cases r with
          | error f m₁ => exact ⟨_, .sequenceFault heach⟩
          | ok v m₁ =>
              obtain ⟨vs, rfl⟩ := heach.exists_list
              exact ⟨_, .sequence heach⟩
      | choose =>
          obtain ⟨condition, branches, rfl, hlen⟩ := SpecialForm.parts_of_choose h
          obtain ⟨r, hcond⟩ := ih _ (.condition hlen)
          cases r with
          | error f m₁ => exact ⟨_, .conditionFault hlen hcond⟩
          | ok c m₁ =>
              cases hchosen : chosen? c branches with
              | none => exact ⟨_, .noBranch hlen hcond hchosen⟩
              | some e =>
                  obtain ⟨r, hbranch⟩ := ih _ (.branch hlen hcond hchosen)
                  exact ⟨r, .branch hlen hcond hchosen hbranch⟩
      | function => exact absurd h (SpecialForm.immediate?_function_ne_none room env parts)

/-- Expressions in order have an outcome once each of them has one. -/
lemma exists_of_each {es : List Value}
    (ih : ∀ c', Invokes limit (.each room env es, m) c' → ∃ r, Evaluates limit c'.1 c'.2 r) :
    ∃ r, Evaluates limit (.each room env es) m r := by
  cases es with
  | nil => exact ⟨_, .nil⟩
  | cons e rest =>
      obtain ⟨r₁, hfirst⟩ := ih _ .first
      cases r₁ with
      | error f m₁ => exact ⟨_, .firstFault hfirst⟩
      | ok v m₁ =>
          obtain ⟨r₂, hrest⟩ := ih _ (.rest hfirst)
          cases r₂ with
          | error f m₂ => exact ⟨_, .restFault hfirst hrest⟩
          | ok w m₂ =>
              obtain ⟨vs, rfl⟩ := hrest.exists_list
              exact ⟨_, .cons hfirst hrest⟩

/-- A scope has an outcome once its values and its body have one. -/
lemma exists_of_scope {bindings : List Value} {body : Value}
    (ih : ∀ c', Invokes limit (.scope room env bindings body, m) c' →
      ∃ r, Evaluates limit c'.1 c'.2 r) :
    ∃ r, Evaluates limit (.scope room env bindings body) m r := by
  match bindings with
  | [] | [_] =>
      obtain ⟨r, hbody⟩ := ih _ (.scopeBody (by simp))
      exact ⟨r, .scopeBody (by simp) hbody⟩
  | .sym name :: e :: rest =>
      obtain ⟨r₁, hvalue⟩ := ih _ .scopeValue
      cases r₁ with
      | error f m₁ => exact ⟨_, .scopeFault hvalue⟩
      | ok v m₁ =>
          obtain ⟨r, hrest⟩ := ih _ (.scopeRest hvalue)
          exact ⟨r, .scopeBinding hvalue hrest⟩
  | .list _ :: _ :: _ | .nil :: _ :: _ | .bool _ :: _ :: _ | .int _ :: _ :: _ | .str _ :: _ :: _
  | .kw _ :: _ :: _ | .builtin _ :: _ :: _ | .closure _ _ _ :: _ :: _ | .foreign _ :: _ :: _ =>
      exact ⟨_, .scopeName (by simp)⟩

/-- An application to evaluated arguments has an outcome once the body has one. -/
lemma exists_of_apply {f : Value} {args : List Value}
    (ih : ∀ c', Invokes limit (.apply room f args, m) c' → ∃ r, Evaluates limit c'.1 c'.2 r) :
    ∃ r, Evaluates limit (.apply room f args) m r := by
  match f with
  | .builtin p =>
      rcases roomForPrimitive_eq room p args with h | h
      · exact ⟨_, .primitive (congrFun h m)⟩
      · exact ⟨_, .primitiveTooDeep (congrFun h m)⟩
  | .closure params body scope =>
      by_cases hlen : params.length = args.length
      · by_cases hdepth : (m.depth : Int) < limit
        · cases hroom : room.fits 2 with
          | false => exact ⟨_, .bodyTooDeep hlen hdepth hroom⟩
          | true =>
              obtain ⟨r, hbody⟩ := ih _ (.body hlen hdepth hroom)
              cases r with
              | error f m₁ => exact ⟨_, .bodyFault hlen hdepth hroom hbody⟩
              | ok v m₁ => exact ⟨_, .call hlen hdepth hroom hbody⟩
        · exact ⟨_, .refused hlen (Int.not_lt.mp hdepth)⟩
      · exact ⟨_, .arity hlen⟩
  | .list _ | .nil | .bool _ | .int _ | .str _ | .sym _ | .kw _ | .foreign _ =>
      exact ⟨_, .notCallable rfl⟩

end

/-- **Totality**: every job ends, whatever it is started on. -/
theorem exists_evaluates (limit : Int) (job : Job) (m : Machine) :
    ∃ r, Evaluates limit job m r := by
  suffices ∀ c : Job × Machine, ∃ r, Evaluates limit c.1 c.2 r from this (job, m)
  intro c
  induction c using (wellFounded_invokes limit).induction with
  | _ c ih =>
      obtain ⟨job, m⟩ := c
      cases job with
      | expr => exact exists_of_expr ih
      | form => exact exists_of_form ih
      | each => exact exists_of_each ih
      | scope => exact exists_of_scope ih
      | apply => exact exists_of_apply ih

end TinyLisp
