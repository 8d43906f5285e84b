/-
The evaluator follows the rules.

The evaluator carries a budget of call frames for nested calls, and an answer for
a budget that is used up. The rules know neither. Whatever budget covers the
frames that the limit leaves gives the outcome of the rules, so the answer for a
used up budget is never asked for, and since every job has an outcome the two
agree everywhere.

* `bodyEvaluator`: how bodies are evaluated with a budget.
* `Job.run`: a job run by the evaluator.
* `Evaluates.run_eq`: the outcome of the rules is what the evaluator computes.
* `evaluates_expr_iff`, `evaluates_apply_iff`: evaluating an expression, and
  applying a value to evaluated arguments, by the rules and by the evaluator.
* `Evaluates.unique`: an outcome is determined.
-/
import TinyLisp.Proofs.Descent

namespace TinyLisp

open EvalM

/-! ### Computations in sequence -/

namespace EvalM

variable {α β : Type} {x : EvalM α} {next : α → EvalM β} {m m₁ : Machine}

lemma bind_ok {a : α} (h : x m = .ok a m₁) : (x >>= next) m = next a m₁ := by
  simp [bind, EStateM.bind, h]

lemma bind_error {f : Fault} (h : x m = .error f m₁) : (x >>= next) m = .error f m₁ := by
  simp [bind, EStateM.bind, h]

lemma map_ok {f : α → β} {a : α} (h : x m = .ok a m₁) : (f <$> x) m = .ok (f a) m₁ := by
  simp [Functor.map, EStateM.map, h]

lemma map_error {f : α → β} {g : Fault} (h : x m = .error g m₁) :
    (f <$> x) m = .error g m₁ := by
  simp [Functor.map, EStateM.map, h]

/-- A list of values comes from a computation of its items. -/
lemma eq_ok_of_map_list {xs : EvalM (List Value)} {vs : List Value}
    (h : (Value.list <$> xs) m = .ok (.list vs) m₁) : xs m = .ok vs m₁ := by
  cases hx : xs m with
  | ok ws m₂ =>
      rw [map_ok hx] at h
      simpa using h
  | error f m₂ =>
      rw [map_error hx] at h
      cases h

lemma eq_error_of_map_list {xs : EvalM (List Value)} {f : Fault}
    (h : (Value.list <$> xs) m = .error f m₁) : xs m = .error f m₁ := by
  cases hx : xs m with
  | ok ws m₂ =>
      rw [map_ok hx] at h
      cases h
  | error g m₂ =>
      rw [map_error hx] at h
      cases h
      rfl

lemma ofExcept_run (x : Except Fault Value) (m : Machine) :
    (ofExcept x : EvalM Value) m = Outcome.ofResult x m := by
  cases x <;> rfl

end EvalM

namespace Room

lemma inside_of_fits {room : Room} {frames : ℕ} (h : room.fits frames = true) (m : Machine) :
    room.inside frames m = .ok (room.less frames) m := by
  rw [inside, if_pos h]
  rfl

lemma inside_of_not_fits {room : Room} {frames : ℕ} (h : room.fits frames = false)
    (m : Machine) : room.inside frames m = .error .stackDepth m := by
  rw [inside, if_neg (by simp [h])]
  rfl

end Room

/-! ### Jobs run by the evaluator -/

/-- How the bodies of closures are evaluated with a budget of call frames. -/
def bodyEvaluator (limit : Int) : ℕ → BodyEvaluator
  | 0 => fun _ _ _ => throw (depthFault limit)
  | budget + 1 => evaluate limit budget

lemma evaluate_eq_evalWith (limit : Int) (budget : ℕ) :
    evaluate limit budget = evalWith (bodyEvaluator limit budget) limit := by
  cases budget <;> rfl

/-- A job run by the evaluator, given how bodies are evaluated. -/
def Job.run (evalBody : BodyEvaluator) (limit : Int) : Job → EvalM Value
  | .expr room env e => evalWith evalBody limit room env e
  | .form room env .define parts => evalDefine evalBody limit room env parts
  | .form room env .letIn parts => evalLet evalBody limit room env parts
  | .form room env .sequence parts =>
    (fun vs => vs.getLastD .nil) <$> evalEach evalBody limit room env parts
  | .form room env .choose parts => evalChoose evalBody limit room env parts
  | .form room env .function parts => ofExcept (closureOf room env parts)
  | .each room env es => Value.list <$> evalEach evalBody limit room env es
  | .scope room env bindings body => do
    evalBindings evalBody limit room env bindings
    evalWith evalBody limit room env body
  | .apply room f args => applyWith evalBody limit room f args

section

variable {evalBody : BodyEvaluator} {limit : Int} {room : Room} {env : ℕ} {m : Machine}

lemma run_constant {e : Value} (hroom : room.fits 1 = true) (he : e.isConstant = true) :
    evalWith evalBody limit room env e m = .ok e m := by
  have hrule : evalWith evalBody limit room env e = do
      let _ ← room.inside 1
      return e := by
    unfold evalWith
    split <;> simp_all [Value.isConstant]
  rw [hrule, bind_ok (room.inside_of_fits hroom m)]
  rfl

lemma run_tooDeep {e : Value} (hroom : room.fits 1 = false) :
    evalWith evalBody limit room env e m = .error .stackDepth m := by
  unfold evalWith
  split <;> exact bind_error (room.inside_of_not_fits hroom m)

lemma run_symbol {name : String} (hroom : room.fits 1 = true) :
    evalWith evalBody limit room env (.sym name) m = lookup env name m := by
  rw [evalWith, bind_ok (room.inside_of_fits hroom m)]

lemma run_special {head : Value} {tail : List Value} {form : SpecialForm}
    (hroom : room.fits 1 = true) (hform : SpecialForm.ofHead? head = some form)
    (hinner : (room.less 1).fits 1 = true) :
    evalWith evalBody limit room env (.list (head :: tail)) m =
      (Job.form ((room.less 1).less 1) env form tail).run evalBody limit m := by
  rw [evalWith, bind_ok (room.inside_of_fits hroom m)]
  simp only [hform]
  rw [bind_ok ((room.less 1).inside_of_fits hinner m)]
  cases form <;> rfl

lemma run_application {head : Value} {tail : List Value} (hroom : room.fits 1 = true)
    (hform : SpecialForm.ofHead? head = none) :
    evalWith evalBody limit room env (.list (head :: tail)) m = (do
      let f ← evalWith evalBody limit (room.less 1) env head
      let inner ← (room.less 1).inside 1
      let args ← evalEach evalBody limit inner env tail
      applyWith evalBody limit (room.less 1) f args) m := by
  rw [evalWith, bind_ok (room.inside_of_fits hroom m)]
  simp only [hform]

/-- A form that evaluates none of its parts leaves the machine as it is. -/
lemma run_immediate {form : SpecialForm} {parts : List Value} {result : Except Fault Value}
    (h : form.immediate? room env parts = some result) :
    (Job.form room env form parts).run evalBody limit m = Outcome.ofResult result m := by
  revert h
  fun_cases SpecialForm.immediate? room env form parts with
  | case1 | case4 | case8 | case9 | case10 => exact nofun
  | case2 v e hname =>
      rintro ⟨⟩
      rw [Job.run, evalDefine.eq_2 _ _ _ _ _ _ hname]
      rfl
  | case3 parts hname hlen =>
      rintro ⟨⟩
      rw [Job.run, evalDefine.eq_3 _ _ _ _ _ hname hlen]
      rfl
  | case5 bindings body hodd =>
      rintro ⟨⟩
      rw [Job.run, evalLet, if_neg hodd]
      rfl
  | case6 v body hlist =>
      rintro ⟨⟩
      rw [Job.run, evalLet.eq_2 _ _ _ _ _ _ hlist]
      rfl
  | case7 parts hlist hlen =>
      rintro ⟨⟩
      rw [Job.run, evalLet.eq_3 _ _ _ _ _ hlist hlen]
      rfl
  | case11 parts hlen₂ hlen₃ =>
      rintro ⟨⟩
      rw [Job.run, evalChoose.eq_3 _ _ _ _ _ hlen₂ hlen₃]
      rfl
  | case12 parts =>
      rintro ⟨⟩
      rw [Job.run, ofExcept_run]

lemma run_choose {condition : Value} {branches : List Value}
    (hlen : branches.length = 1 ∨ branches.length = 2) :
    evalChoose evalBody limit room env (condition :: branches) = (do
      let c ← evalWith evalBody limit room env condition
      match chosen? c branches with
      | some e => evalWith evalBody limit room env e
      | none => return .nil) := by
  match branches, hlen with
  | [consequent], _ =>
      rw [evalChoose]
      congr 1 with c
      cases hc : c.isTruthy <;> simp [chosen?, hc]
  | [consequent, alternative], _ =>
      rw [evalChoose]
      congr 1 with c
      cases hc : c.isTruthy <;> simp [chosen?, hc]

lemma run_scopeBody {bindings : List Value} {body : Value} (hlen : bindings.length < 2) :
    (Job.scope room env bindings body).run evalBody limit m =
      evalWith evalBody limit room env body m := by
  rw [Job.run, evalBindings.eq_3]
  · rfl
  · rintro name e rest rfl
    simp at hlen
  · rintro v e rest rfl
    simp at hlen

lemma run_primitive {p : Primitive} {args : List Value}
    (hroom : roomForPrimitive room p args m = .ok () m) :
    applyWith evalBody limit room (.builtin p) args m = Outcome.ofResult (p.apply args) m := by
  rw [applyWith, bind_ok hroom, ofExcept_run]

lemma run_notCallable {f : Value} {args : List Value} (hf : f.isFunction = false) :
    applyWith evalBody limit room f args m = .error (room.notCallable f) m := by
  cases f <;> first | rfl | exact absurd hf (by simp [Value.isFunction])

lemma run_arity {params : List String} {body : Value} {args : List Value}
    (hlen : params.length ≠ args.length) :
    applyWith evalBody limit room (.closure params body env) args m =
      .error (.closureArity params.length args.length) m := by
  rw [applyWith]
  refine bind_error ?_
  rw [bindArguments, if_neg hlen]

lemma run_closure {params : List String} {body : Value} {args : List Value}
    (hlen : params.length = args.length) :
    applyWith evalBody limit room (.closure params body env) args m =
      inFrame limit (do
        let room ← room.inside 2
        evalBody room m.store.size body) (m.pushArguments env params args) := by
  have hbind : bindArguments env params args m =
      .ok m.store.size (m.pushArguments env params args) := by
    rw [bindArguments, if_pos hlen]
    rfl
  rw [applyWith, bind_ok hbind]

lemma run_inFrame_ok {body : EvalM Value} {v : Value} {m₁ : Machine} (h : (m.depth : Int) < limit)
    (hbody : body m.enter = .ok v m₁) : inFrame limit body m = .ok v m₁.leave := by
  rw [Machine.enter] at hbody
  rw [inFrame, openFrame, if_neg (Int.not_le.mpr h)]
  simp only [hbody, Machine.leave]

lemma run_inFrame_error {body : EvalM Value} {f : Fault} {m₁ : Machine}
    (h : (m.depth : Int) < limit) (hbody : body m.enter = .error f m₁) :
    inFrame limit body m = .error f m₁.leave := by
  rw [Machine.enter] at hbody
  rw [inFrame, openFrame, if_neg (Int.not_le.mpr h)]
  simp only [hbody, Machine.leave]

section

variable {params : List String} {body : Value} {args : List Value}

lemma run_refused (hlen : params.length = args.length) (h : limit ≤ m.depth) :
    applyWith evalBody limit room (.closure params body env) args m =
      .error (depthFault limit) (m.pushArguments env params args).refuse := by
  rw [run_closure hlen, inFrame, openFrame]
  exact if_pos h ▸ rfl

lemma run_bodyTooDeep (hlen : params.length = args.length) (hdepth : (m.depth : Int) < limit)
    (hroom : room.fits 2 = false) :
    applyWith evalBody limit room (.closure params body env) args m =
      .error .stackDepth (m.pushArguments env params args).enter.leave := by
  rw [run_closure hlen]
  exact run_inFrame_error hdepth (bind_error (Room.inside_of_not_fits hroom _))

lemma run_bodyFault {f : Fault} {m₁ : Machine} (hlen : params.length = args.length)
    (hdepth : (m.depth : Int) < limit) (hroom : room.fits 2 = true)
    (hbody : evalBody (room.less 2) m.store.size body (m.pushArguments env params args).enter =
      .error f m₁) :
    applyWith evalBody limit room (.closure params body env) args m = .error f m₁.leave := by
  rw [run_closure hlen]
  refine run_inFrame_error hdepth ?_
  rwa [bind_ok (Room.inside_of_fits hroom _)]

lemma run_call {v : Value} {m₁ : Machine} (hlen : params.length = args.length)
    (hdepth : (m.depth : Int) < limit) (hroom : room.fits 2 = true)
    (hbody : evalBody (room.less 2) m.store.size body (m.pushArguments env params args).enter =
      .ok v m₁) :
    applyWith evalBody limit room (.closure params body env) args m = .ok v m₁.leave := by
  rw [run_closure hlen]
  refine run_inFrame_ok hdepth ?_
  rwa [bind_ok (Room.inside_of_fits hroom _)]

end

end

/-! ### The evaluator follows the rules -/

/-- The body of a call is evaluated with one frame less. -/
lemma run_body {limit : Int} {m m' : Machine} {room : Room} {env : ℕ} {body : Value} {r : Outcome}
    (hdepth : (m.depth : Int) < limit) (hm : m'.depth = m.depth + 1)
    (ih : ∀ budget, budgetAt limit m'.depth ≤ budget →
      (Job.expr room env body).run (bodyEvaluator limit budget) limit m' = r)
    {budget : ℕ} (hb : budgetAt limit m.depth ≤ budget) :
    bodyEvaluator limit budget room env body m' = r := by
  have hlt := budgetAt_succ_lt hdepth
  obtain ⟨rest, rfl⟩ : ∃ rest, budget = rest + 1 := ⟨budget - 1, by omega⟩
  rw [← ih rest (by rw [hm]; omega), bodyEvaluator, evaluate_eq_evalWith]
  rfl

/-- **Soundness of the evaluator**: whatever budget covers the frames that the limit leaves, the
evaluator computes the outcome of the rules. -/
theorem Evaluates.run_eq {limit : Int} {job : Job} {m : Machine} {r : Outcome}
    (h : Evaluates limit job m r) :
    ∀ budget, budgetAt limit m.depth ≤ budget →
      job.run (bodyEvaluator limit budget) limit m = r := by
  -- a part starts at the depth of the whole, so the budget that covers the whole covers the part;
  -- only the body of a call takes one frame of it
  induction h with
  | tooDeep hroom => exact fun _ _ => run_tooDeep hroom
  | bound hroom hv =>
      intro budget _
      rw [Job.run, run_symbol hroom, lookup, hv]
  | unbound hroom hv =>
      intro budget _
      rw [Job.run, run_symbol hroom, lookup, hv]
  | constant hroom he => exact fun _ _ => run_constant hroom he
  | formTooDeep hroom hform hinner =>
      intro budget _
      rw [Job.run, evalWith, bind_ok (Room.inside_of_fits hroom _)]
      simp only [hform]
      exact bind_error (Room.inside_of_not_fits hinner _)
  | special hroom hform hinner _ ih =>
      intro budget hb
      rw [Job.run, run_special hroom hform hinner]
      exact ih budget hb
  | headFault hroom hform _ ih =>
      intro budget hb
      rw [Job.run, run_application hroom hform]
      exact bind_error (ih budget hb)
  | argumentsTooDeep hroom hform _ hinner ih =>
      intro budget hb
      rw [Job.run, run_application hroom hform]
      refine (bind_ok (ih budget hb)).trans ?_
      exact bind_error (Room.inside_of_not_fits hinner _)
  | argumentsFault hroom hform hhead hinner _ ih₁ ih₂ =>
      intro budget hb
      have hargs := eq_error_of_map_list (ih₂ budget (by rwa [← hhead.depth_eq] at hb))
      rw [Job.run, run_application hroom hform]
      refine (bind_ok (ih₁ budget hb)).trans ?_
      refine (bind_ok (Room.inside_of_fits hinner _)).trans ?_
      exact bind_error hargs
  | application hroom hform hhead hinner hargs _ ih₁ ih₂ ih₃ =>
      intro budget hb
      have hb₁ := hhead.depth_eq ▸ hb
      have hb₂ := hargs.depth_eq ▸ hb₁
      rw [Job.run, run_application hroom hform]
      refine (bind_ok (ih₁ budget hb)).trans ?_
      refine (bind_ok (Room.inside_of_fits hinner _)).trans ?_
      refine (bind_ok (eq_ok_of_map_list (ih₂ budget hb₁))).trans ?_
      exact ih₃ budget hb₂
  | immediate h => exact fun _ _ => run_immediate h
  | define _ ih =>
      intro budget hb
      rw [Job.run, evalDefine]
      exact bind_ok (ih budget hb)
  | defineFault _ ih =>
      intro budget hb
      rw [Job.run, evalDefine]
      exact bind_error (ih budget hb)
  | letIn heven _ ih =>
      intro budget hb
      rw [Job.run, evalLet, if_pos heven]
      exact ih budget hb
  | sequence _ ih =>
      intro budget hb
      rw [Job.run]
      exact map_ok (eq_ok_of_map_list (ih budget hb))
  | sequenceFault _ ih =>
      intro budget hb
      rw [Job.run]
      exact map_error (eq_error_of_map_list (ih budget hb))
  | conditionFault hlen _ ih =>
      intro budget hb
      rw [Job.run, run_choose hlen]
      exact bind_error (ih budget hb)
  | branch hlen hcond hchosen _ ih₁ ih₂ =>
      intro budget hb
      rw [Job.run, run_choose hlen]
      refine (bind_ok (ih₁ budget hb)).trans ?_
      rw [hchosen]
      exact ih₂ budget (by rwa [← hcond.depth_eq] at hb)
  | noBranch hlen _ hchosen ih =>
      intro budget hb
      rw [Job.run, run_choose hlen]
      refine (bind_ok (ih budget hb)).trans ?_
      rw [hchosen]
      rfl
  | nil => exact fun _ _ => rfl
  | firstFault _ ih =>
      intro budget hb
      rw [Job.run, evalEach]
      exact map_error (bind_error (ih budget hb))
  | restFault hfirst _ ih₁ ih₂ =>
      intro budget hb
      have hrest := eq_error_of_map_list (ih₂ budget (by rwa [← hfirst.depth_eq] at hb))
      rw [Job.run, evalEach]
      refine map_error ((bind_ok (ih₁ budget hb)).trans ?_)
      exact bind_error hrest
  | cons hfirst _ ih₁ ih₂ =>
      intro budget hb
      have hrest := eq_ok_of_map_list (ih₂ budget (by rwa [← hfirst.depth_eq] at hb))
      rw [Job.run, evalEach]
      refine map_ok ((bind_ok (ih₁ budget hb)).trans ?_)
      exact bind_ok hrest
  | scopeBody hlen _ ih =>
      intro budget hb
      rw [run_scopeBody hlen]
      exact ih budget hb
  | scopeName hkey =>
      intro budget _
      rw [Job.run, evalBindings.eq_2 _ _ _ _ _ _ _ hkey]
      rfl
  | scopeFault _ ih =>
      intro budget hb
      rw [Job.run, evalBindings]
      exact bind_error (bind_error (ih budget hb))
  | scopeBinding hvalue _ ih₁ ih₂ =>
      intro budget hb
      have hrest := ih₂ budget (by rwa [← hvalue.depth_eq] at hb)
      rw [← hrest, Job.run, Job.run, evalBindings, bind_assoc]
      exact bind_ok (ih₁ budget hb)
  | primitiveTooDeep hroom => exact fun _ _ => bind_error hroom
  | primitive hroom =>
      intro budget _
      rw [Job.run, run_primitive hroom]
  | arity hlen => exact fun _ _ => run_arity hlen
  | refused hlen hdepth => exact fun _ _ => run_refused hlen hdepth
  | bodyTooDeep hlen hdepth hroom => exact fun _ _ => run_bodyTooDeep hlen hdepth hroom
  | bodyFault hlen hdepth hroom _ ih =>
      exact fun _ hb => run_bodyFault hlen hdepth hroom (run_body hdepth rfl ih hb)
  | call hlen hdepth hroom _ ih =>
      exact fun _ hb => run_call hlen hdepth hroom (run_body hdepth rfl ih hb)
  | notCallable hf => exact fun _ _ => run_notCallable hf

/-- An outcome is determined. -/
theorem Evaluates.unique {limit : Int} {job : Job} {m : Machine} {r r' : Outcome}
    (h : Evaluates limit job m r) (h' : Evaluates limit job m r') : r = r' :=
  (h.run_eq _ le_rfl).symm.trans (h'.run_eq _ le_rfl)

/-- **Evaluation by the rules and by the evaluator.** -/
theorem evaluates_expr_iff {limit : Int} {room : Room} {env : ℕ} {e : Value} {m : Machine}
    {r : Outcome} : Evaluates limit (.expr room env e) m r ↔ runIn limit room env e m = r := by
  have sound {r : Outcome} (h : Evaluates limit (.expr room env e) m r) :
      runIn limit room env e m = r := by
    rw [runIn, evaluate_eq_evalWith]
    exact h.run_eq _ le_rfl
  refine ⟨sound, ?_⟩
  rintro rfl
  obtain ⟨r, h⟩ := exists_evaluates limit (.expr room env e) m
  rwa [sound h]

/-- **Application by the rules and by the evaluator.** -/
theorem evaluates_apply_iff {limit : Int} {room : Room} {f : Value} {args : List Value}
    {m : Machine} {r : Outcome} :
    Evaluates limit (.apply room f args) m r ↔ applyIn limit room f args m = r := by
  have sound {r : Outcome} (h : Evaluates limit (.apply room f args) m r) :
      applyIn limit room f args m = r := by
    cases h with
    | primitiveTooDeep hroom => exact bind_error hroom
    | primitive hroom => exact run_primitive hroom
    | arity hlen => exact run_arity hlen
    | refused hlen hdepth => exact run_refused hlen hdepth
    | bodyTooDeep hlen hdepth hroom => exact run_bodyTooDeep hlen hdepth hroom
    | bodyFault hlen hdepth hroom hbody =>
        exact run_bodyFault hlen hdepth hroom (evaluates_expr_iff.mp hbody)
    | call hlen hdepth hroom hbody =>
        exact run_call hlen hdepth hroom (evaluates_expr_iff.mp hbody)
    | notCallable hf => exact run_notCallable hf
  refine ⟨sound, ?_⟩
  rintro rfl
  obtain ⟨r, h⟩ := exists_evaluates limit (.apply room f args) m
  rwa [sound h]

/-- What evaluating an expression comes to, by the rules. -/
lemma evaluates_runIn (limit : Int) (room : Room) (env : ℕ) (e : Value) (m : Machine) :
    Evaluates limit (.expr room env e) m (runIn limit room env e m) :=
  evaluates_expr_iff.mpr rfl

/-- What an application to evaluated arguments comes to, by the rules. -/
lemma evaluates_applyIn (limit : Int) (room : Room) (f : Value) (args : List Value) (m : Machine) :
    Evaluates limit (.apply room f args) m (applyIn limit room f args m) :=
  evaluates_apply_iff.mpr rfl

end TinyLisp
