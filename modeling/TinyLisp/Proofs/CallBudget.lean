/-
The budget of call frames.

A run asks for the limit on call frames only when it calls a closure, and then
only whether a frame is left. So a run that is not cut off by the limit is the
same under every higher limit, and two runs with the same frames left go the
same way: only the number in the fault of a refused call tells them apart.

* `Evaluates.raise_limit`: a run that the limit does not cut off, under a higher
  limit.
* `Machine.Alike`, `Outcome.Alike`: machines and outcomes with the same store
  and the same budget.
* `Evaluates.alike`: runs from alike machines are alike.
* `outcome_depends_on_budget` (**the call-depth budget**).
-/
import TinyLisp.Proofs.Simulation

namespace TinyLisp

/-! ### Raising the limit -/

/-- **A run that the limit does not cut off** is the same run under every higher limit. -/
theorem Evaluates.raise_limit {limit limit' : Int} {job : Job} {m : Machine} {r : Outcome}
    (h : Evaluates limit job m r) (hlimit : (Text.decimal? limit).isSome)
    (hle : limit ≤ limit') (hr : r.result ≠ .error (.callDepth limit)) :
    Evaluates limit' job m r := by
  -- A fault of a part is the fault of the whole, and a value is no fault, so `hr` holds of the
  -- parts as well; only a refused call could tell the limits apart.
  have hvalue (v : Value) : (Except.ok v : Except Fault Value) ≠ .error (.callDepth limit) :=
    fun heq => nomatch heq
  induction h with
  | tooDeep hroom => exact .tooDeep hroom
  | bound hroom hv => exact .bound hroom hv
  | unbound hroom hv => exact .unbound hroom hv
  | constant hroom he => exact .constant hroom he
  | formTooDeep hroom hform hinner => exact .formTooDeep hroom hform hinner
  | special hroom hform hinner _ ih => exact .special hroom hform hinner (ih hr)
  | headFault hroom hform _ ih => exact .headFault hroom hform (ih hr)
  | argumentsTooDeep hroom hform _ hinner ih =>
      exact .argumentsTooDeep hroom hform (ih (hvalue _)) hinner
  | argumentsFault hroom hform _ hinner _ ih₁ ih₂ =>
      exact .argumentsFault hroom hform (ih₁ (hvalue _)) hinner (ih₂ hr)
  | application hroom hform _ hinner _ _ ih₁ ih₂ ih₃ =>
      exact .application hroom hform (ih₁ (hvalue _)) hinner (ih₂ (hvalue _)) (ih₃ hr)
  | immediate h => exact .immediate h
  | define _ ih => exact .define (ih (hvalue _))
  | defineFault _ ih => exact .defineFault (ih hr)
  | letIn heven _ ih => exact .letIn heven (ih hr)
  | sequence _ ih => exact .sequence (ih (hvalue _))
  | sequenceFault _ ih => exact .sequenceFault (ih hr)
  | conditionFault hlen _ ih => exact .conditionFault hlen (ih hr)
  | branch hlen _ hchosen _ ih₁ ih₂ => exact .branch hlen (ih₁ (hvalue _)) hchosen (ih₂ hr)
  | noBranch hlen _ hchosen ih => exact .noBranch hlen (ih (hvalue _)) hchosen
  | nil => exact .nil
  | firstFault _ ih => exact .firstFault (ih hr)
  | restFault _ _ ih₁ ih₂ => exact .restFault (ih₁ (hvalue _)) (ih₂ hr)
  | cons _ _ ih₁ ih₂ => exact .cons (ih₁ (hvalue _)) (ih₂ (hvalue _))
  | scopeBody hlen _ ih => exact .scopeBody hlen (ih hr)
  | scopeName hkey => exact .scopeName hkey
  | scopeFault _ ih => exact .scopeFault (ih hr)
  | scopeBinding _ _ ih₁ ih₂ => exact .scopeBinding (ih₁ (hvalue _)) (ih₂ hr)
  | primitiveTooDeep hroom => exact .primitiveTooDeep hroom
  | primitive hroom => exact .primitive hroom
  | arity hlen => exact .arity hlen
  | refused => exact absurd (congrArg Except.error (depthFault_eq hlimit)) hr
  | bodyTooDeep hlen hdepth hroom => exact .bodyTooDeep hlen (by omega) hroom
  | bodyFault hlen hdepth hroom _ ih => exact .bodyFault hlen (by omega) hroom (ih hr)
  | call hlen hdepth hroom _ ih => exact .call hlen (by omega) hroom (ih (hvalue _))
  | notCallable hf => exact .notCallable hf

/-! ### Alike machines -/

/-- Two machines under limits of their own, with the same store and the same budget. -/
structure Machine.Alike (limit limit' : Int) (m m' : Machine) : Prop where
  store_eq : m'.store = m.store
  budget_eq : budgetAt limit' m'.depth = budgetAt limit m.depth

/-- Two outcomes under limits of their own: the same value, or the same fault but for the limit
that it shows, on alike machines. -/
inductive Outcome.Alike (limit limit' : Int) : Outcome → Outcome → Prop where
  | ok {v m m'} (h : Machine.Alike limit limit' m m') : Alike limit limit' (.ok v m) (.ok v m')
  | error {f m m'} (h : Machine.Alike limit limit' m m') :
    Alike limit limit' (.error f m) (.error (f.withLimit limit') m')

/-! ### Alike runs -/

/-- **Runs from alike machines are alike.** -/
theorem Evaluates.alike {limit limit' : Int} {job : Job} {m : Machine} {r : Outcome}
    (h : Evaluates limit job m r) (hlimit : (Text.decimal? limit).isSome)
    (hlimit' : (Text.decimal? limit').isSome) :
    ∀ {m'}, Machine.Alike limit limit' m m' →
      ∃ r', Evaluates limit' job m' r' ∧ Outcome.Alike limit limit' r r' := by
  intro m' hm
  have hmachines : Simulation.same.Machines limit limit' m m' := ⟨hm.store_eq, hm.budget_eq⟩
  obtain ⟨r', hrun, hout⟩ :=
    h.simulate trivial (List.disjoint_nil_right _) (.refl job.room r.result) hmachines
  rw [job.translate_same] at hrun
  refine ⟨r', hrun, ?_⟩
  cases hout with
  | @ok v _ _ _ hm =>
      rw [v.translate_same]
      exact .ok ⟨hm.related, hm.budget_eq⟩
  | error hf hm =>
      rw [hf.eq_withLimit (fun _ => rfl) hlimit hlimit']
      exact .error ⟨hm.related, hm.budget_eq⟩

lemma Outcome.Alike.store_eq {limit limit' : Int} {r r' : Outcome}
    (h : Outcome.Alike limit limit' r r') : r'.machine.store = r.machine.store := by
  cases h with
  | ok hm | error hm => exact hm.store_eq

lemma Outcome.Alike.result_eq {limit limit' : Int} {r r' : Outcome}
    (h : Outcome.Alike limit limit' r r') :
    r'.result = r.result.mapError (Fault.withLimit limit') := by
  cases h with
  | ok hm | error hm => rfl

/-- The budget stays when the limit and the depth move together. -/
lemma budgetAt_add (limit : Int) (depth k : ℕ) :
    budgetAt (limit + k) (depth + k) = budgetAt limit depth := by
  unfold budgetAt
  omega

/-- **The call-depth budget.** An evaluation that the limit does not cut off comes to the same
value or fault, on the same machine, under every higher limit. And it depends on the limit and on
the depth at its start only through the frames that are left, but for the number that the fault of
a refused call shows. -/
theorem outcome_depends_on_budget {limit : Int} (hlimit : (Text.decimal? limit).isSome)
    (room : Room) (env : ℕ) (e : Value) (m : Machine) :
    let r := runIn limit room env e m
    (∀ limit', limit ≤ limit' → Outcome.result r ≠ .error (.callDepth limit) →
      runIn limit' room env e m = r) ∧
    (∀ limit', (Text.decimal? limit').isSome → ∀ m' : Machine, m'.store = m.store →
      budgetAt limit' m'.depth = budgetAt limit m.depth →
      let r' := runIn limit' room env e m'
      (Outcome.machine r').store = (Outcome.machine r).store ∧
      Outcome.result r' = (Outcome.result r).mapError (Fault.withLimit limit')) ∧
    ∀ k : ℕ, budgetAt (limit + k) (m.depth + k) = budgetAt limit m.depth := by
  intro r
  have hr := evaluates_runIn limit room env e m
  refine ⟨fun limit' hle hne => ?_, fun limit' hlimit' m' hstore hbudget => ?_,
    budgetAt_add limit m.depth⟩
  · exact evaluates_expr_iff.mp (hr.raise_limit hlimit hle hne)
  · obtain ⟨r', hr', halike⟩ := hr.alike hlimit hlimit' ⟨hstore, hbudget⟩
    rw [evaluates_expr_iff.mp hr']
    exact ⟨halike.store_eq, halike.result_eq⟩

/-- A call of a constant function under the limits 3 and 500, and from depth 7 under the
limit 10. -/
theorem outcome_of_constant_call :
    let e : Value := .list [.list [.sym "fn*", .list [.sym "x"], .int 1], .int 2]
    let m : Machine := ⟨(Store.empty.create none).2, 0, []⟩
    let m' : Machine := ⟨m.store, 7, []⟩
    runIn 500 none 0 e m = runIn 3 none 0 e m ∧
      Outcome.result (runIn 10 none 0 e m') = .ok (.int 1) := by
  intro e m m'
  have hlimit : (Text.decimal? 3).isSome := by decide +kernel
  have hlimit' : (Text.decimal? 10).isSome := by decide +kernel
  have hvalue : Outcome.result (runIn 3 none 0 e m) = .ok (.int 1) := rfl
  obtain ⟨hraise, hbudget, _⟩ := outcome_depends_on_budget hlimit none 0 e m
  refine ⟨hraise 500 (by decide) (by rw [hvalue]; exact nofun), ?_⟩
  rw [(hbudget 10 hlimit' m' rfl rfl).2, hvalue]
  rfl

end TinyLisp
