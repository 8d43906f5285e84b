/-
Simulated runs.

A run on one side of a translation can be followed on the other side. The numbers of
the environments and the spelling of the names may differ there; the limits on calls
may differ as long as both leave the same budget, and the other side may have more
room. Only runs under a policy are followed, so what has to be known is the meaning of
the names that they look up, and that a new environment and a binding made on both
sides leave the stores related. How the names in an environment are spelled may depend
on what is foreseen of the links in the end.

* `Simulation`: the laws of a simulation.
* `Simulation.Machines`, `Simulation.Outcomes`: machines and outcomes that correspond.
* `Job.translate`: a job on the other side.
* `Simulation.Follows`: a run that is followed on the other side, with a lemma for each
  rule by which applications, scopes and calls are made of their parts.
* `Evaluates.simulate` (**simulation**): the runs under the policy are followed.
* `Simulation.ofNumbering`: simulations that keep the names.
* `Simulation.same`, `runIn_widen`: the same run on the same store; in a larger room.
-/
import TinyLisp.Proofs.HostRoom
import TinyLisp.Proofs.Policies
import TinyLisp.Proofs.Translation

namespace TinyLisp

/-! ### Simulations -/

/-- A translation with a policy for the runs that can be followed and with stores that are related
by it. -/
structure Simulation extends Translation, Policy where
  /-- What is foreseen of a store. -/
  Foreseen : Store → Prop
  /-- The stores that are related. -/
  Related : Store → Store → Prop
  ofName?_spell (env : ℕ) (name : String) :
    SpecialForm.ofName? (spell env name) = SpecialForm.ofName? name
  foreseen_of_keeps {s s' : Store} {may : ℕ → Set String} (hkeeps : s.Keeps may s')
    (h : Foreseen s') : Foreseen s
  /-- A new environment spells the names as the one around it. -/
  inherit {s s' : Store} (h : Related s s') {outer : ℕ}
    (hforeseen : Foreseen (s.create (some outer)).2) :
    spell s.size = spell outer ∧ Inside outer s.size
  size_eq {s s' : Store} (h : Related s s') : s'.size = number s.size
  get?_eq {s s' : Store} (h : Related s s') (hforeseen : Foreseen s) {room : Room} {env : ℕ}
    {name : String} (hname : Allows (.expr room env (.sym name))) :
    s'.get? (number env) (spell env name) =
      (s.get? env name).map (Value.translate toTranslation id)
  passes_of_get? {s s' : Store} (h : Related s s') {room : Room} {env : ℕ} {name : String}
    {v : Value} (hname : Allows (.expr room env (.sym name))) (hv : s.get? env name = some v) :
    Passes v
  create {s s' : Store} (h : Related s s') (env : ℕ) :
    Related (s.create (some env)).2 (s'.create (some (number env))).2
  set {s s' : Store} (h : Related s s') {env : ℕ} (henv : ¬ IsSealed env) (name : String)
    {v : Value} (hv : Passes v) :
    Related (s.set env name v)
      (s'.set (number env) (spell env name) (v.translate toTranslation id))

namespace Simulation

/-- Machines on related stores, with the same budget of call frames. -/
structure Machines (S : Simulation) (limit limit' : Int) (m m' : Machine) : Prop where
  related : S.Related m.store m'.store
  budget_eq : budgetAt limit' m'.depth = budgetAt limit m.depth

/-- The translated value, or faults that correspond, on machines that correspond. -/
inductive Outcomes (S : Simulation) (limit limit' : Int) : Outcome → Outcome → Prop where
  | ok {v m m'} (hv : S.Passes v) (h : S.Machines limit limit' m m') :
    Outcomes S limit limit' (.ok v m) (.ok (v.translate S.toTranslation id) m')
  | error {f f' m m'} (hf : S.Matches limit limit' f f') (h : S.Machines limit limit' m m') :
    Outcomes S limit limit' (.error f m) (.error f' m')

variable {S : Simulation} {limit limit' : Int}

/-! ### Machines that correspond -/

lemma related_setAll {s s' : Store} (h : S.Related s s') {env : ℕ} (henv : ¬ S.IsSealed env)
    {entries : List (String × Value)}
    (hentries : ∀ entry ∈ entries, S.Passes entry.2) :
    S.Related (s.setAll env entries)
      (s'.setAll (S.number env)
        (entries.map (Prod.map (S.spell env) (Value.translate S.toTranslation id)))) := by
  induction entries generalizing s s' with
  | nil => exact h
  | cons entry rest ih =>
      exact ih (S.set h henv entry.1 (hentries entry List.mem_cons_self))
        fun other hother => hentries other (List.mem_cons_of_mem _ hother)

/-- What is foreseen of a store with a binding more is foreseen of the store. -/
lemma foreseen_of_set {s : Store} {env : ℕ} {name : String} {v : Value}
    (h : S.Foreseen (s.set env name v)) : S.Foreseen s :=
  S.foreseen_of_keeps (Store.Keeps.set_any s env name v) h

/-- What is foreseen of a call is foreseen of its environment before the parameters are bound. -/
lemma foreseen_of_createWith {s : Store} {outer : ℕ} {entries : List (String × Value)}
    (h : S.Foreseen (s.createWith outer entries).2) : S.Foreseen (s.create (some outer)).2 :=
  S.foreseen_of_keeps (Store.Keeps.setAll_any _ _ entries) h

namespace Machines

variable {m m' : Machine}

lemma bind (h : S.Machines limit limit' m m') {env : ℕ} (henv : ¬ S.IsSealed env) (name : String)
    {v : Value} (hv : S.Passes v) :
    S.Machines limit limit' (m.bind env name v)
      (m'.bind (S.number env) (S.spell env name) (v.translate S.toTranslation id)) where
  related := S.set h.related henv name hv
  budget_eq := h.budget_eq

lemma pushScope (h : S.Machines limit limit' m m') (env : ℕ) :
    S.Machines limit limit' (m.pushScope env) (m'.pushScope (S.number env)) where
  related := S.create h.related env
  budget_eq := h.budget_eq

lemma pushArguments (h : S.Machines limit limit' m m') {env : ℕ} {params : List String}
    {args : List Value} (hargs : ∀ v ∈ args, S.Passes v)
    (hforeseen : S.Foreseen (m.pushArguments env params args).store) :
    S.Machines limit limit' (m.pushArguments env params args)
      (m'.pushArguments (S.number env) (params.map (S.spell env))
        (args.map (Value.translate S.toTranslation id))) where
  related := by
    obtain ⟨hspell, hinner⟩ := S.inherit h.related (foreseen_of_createWith hforeseen)
    rw [Machine.pushArguments, Machine.pushArguments, List.zip_map, ← hspell]
    simp only [Store.createWith, Store.create, S.size_eq h.related]
    exact related_setAll (S.create h.related env) (S.not_sealed hinner) fun entry hentry =>
      hargs entry.2 (List.of_mem_zip hentry).2
  budget_eq := h.budget_eq

lemma refuse (h : S.Machines limit limit' m m') : S.Machines limit limit' m.refuse m'.refuse :=
  ⟨h.related, h.budget_eq⟩

/-- Machines that correspond are below their limits at the same time. -/
lemma lt_iff (h : S.Machines limit limit' m m') :
    (m'.depth : Int) < limit' ↔ (m.depth : Int) < limit := by
  have hbudget := h.budget_eq
  unfold budgetAt at hbudget
  omega

/-- Below the limit a new call frame takes one frame of each budget. -/
lemma enter (h : S.Machines limit limit' m m') (hdepth : (m.depth : Int) < limit) :
    S.Machines limit limit' m.enter m'.enter where
  related := h.related
  budget_eq := by
    have hdepth' := h.lt_iff.mpr hdepth
    have hbudget := h.budget_eq
    simp only [Machine.enter, budgetAt] at hbudget ⊢
    omega

/-- Closing the frames of two calls, where `m₀` and `m₀'` are the machines before the calls. -/
lemma leave {m₀ m₀' : Machine} (h : S.Machines limit limit' m m')
    (h₀ : S.Machines limit limit' m₀ m₀') (hdepth : m.depth = m₀.depth + 1)
    (hdepth' : m'.depth = m₀'.depth + 1) : S.Machines limit limit' m.leave m'.leave where
  related := h.related
  budget_eq := by
    have hbudget := h₀.budget_eq
    simp only [Machine.leave, hdepth, hdepth']
    exact hbudget

end Machines

/-- A translated list of values. -/
lemma Outcomes.list {vs : List Value} {m : Machine} {r : Outcome}
    (h : S.Outcomes limit limit' (.ok (.list vs) m) r) :
    ∃ m', r = .ok (.list (vs.map (Value.translate S.toTranslation id))) m' ∧
      S.Machines limit limit' m m' ∧ ∀ v ∈ vs, S.Passes v := by
  cases h with
  | ok hv hm =>
      rw [Value.translate_list]
      exact ⟨_, rfl, hm, S.list.mp hv⟩

/-- Results that leave the machines as they are. -/
lemma Outcomes.ofResult {m m' : Machine} {result result' : Except Fault Value}
    (h : S.Machines limit limit' m m') (hresult : S.Results limit limit' result result')
    (hv : ∀ v, result = .ok v → S.Passes v) :
    S.Outcomes limit limit' (.ofResult result m) (.ofResult result' m') := by
  cases hresult with
  | ok v => exact .ok (hv v rfl) h
  | error hf => exact .error hf h

/-- The head of a form announces the same form on the other side. -/
lemma ofHead?_eq (S : Simulation) {env : ℕ} {head : Value} {which : Option SpecialForm}
    (h : SpecialForm.ofHead? head = which) :
    SpecialForm.ofHead? (head.translate S.toTranslation (S.spell env)) = which :=
  (Value.ofHead?_translate (S.ofName?_spell env) head).trans h

end Simulation

/-- The job on the other side of a translation, in some room. -/
def Job.translate (T : Translation) (room : Room) : Job → Job
  | .expr _ env e => .expr room (T.number env) (e.translate T (T.spell env))
  | .form _ env which parts =>
    .form room (T.number env) which (parts.map (Value.translate T (T.spell env)))
  | .each _ env es => .each room (T.number env) (es.map (Value.translate T (T.spell env)))
  | .scope _ env bindings body =>
    .scope room (T.number env) (bindings.map (Value.translate T (T.spell env)))
      (body.translate T (T.spell env))
  | .apply _ f args => .apply room (f.translate T id) (args.map (Value.translate T id))

/-! ### Runs that are followed -/

/-- A run is followed on the other side in the same room, and in a larger one unless it lacked room:
from machines that correspond, the translated job ends with the translated value or with a fault
that corresponds, and leaves a machine that corresponds. -/
def Simulation.Follows (S : Simulation) (limit limit' : Int) (job : Job) (m : Machine)
    (r : Outcome) : Prop :=
  ∀ ⦃room' : Room⦄ ⦃m' : Machine⦄,
    room'.Covers job.room r.result → S.Machines limit limit' m m' →
      ∃ r', Evaluates limit' (job.translate S.toTranslation room') m' r' ∧
        S.Outcomes limit limit' r r'

namespace Simulation.Follows

open Value

variable {S : Simulation} {limit limit' : Int} {room : Room} {env : ℕ} {m m₁ m₂ : Machine}
  {r : Outcome}

/-! #### The application of a head to its arguments -/

section

variable {head f : Value} {tail : List Value}

lemma headFault {g : Fault} (hroom : room.fits 1 = true) (hform : SpecialForm.ofHead? head = none)
    (hhead : S.Follows limit limit' (.expr (room.less 1) env head) m (.error g m₁)) :
    S.Follows limit limit' (.expr room env (.list (head :: tail))) m (.error g m₁) := by
  intro room' m' hcov hm
  obtain ⟨_, hhead, _ | ⟨hg, hm₁⟩⟩ := hhead (hcov.less 1) hm
  simp only [Job.translate, translate_list, List.map_cons]
  exact ⟨_, .headFault (hcov.le.fits hroom) (S.ofHead?_eq hform) hhead, .error hg hm₁⟩

lemma argumentsTooDeep (hroom : room.fits 1 = true) (hform : SpecialForm.ofHead? head = none)
    (hinner : (room.less 1).fits 1 = false)
    (hhead : S.Follows limit limit' (.expr (room.less 1) env head) m (.ok f m₁)) :
    S.Follows limit limit' (.expr room env (.list (head :: tail))) m (.error .stackDepth m₁) := by
  intro room' m' hcov hm
  obtain rfl := hcov.eq_of_stackDepth
  obtain ⟨_, hhead, ⟨-, hm₁⟩⟩ := hhead (.refl _ _) hm
  simp only [Job.translate, translate_list, List.map_cons]
  exact ⟨_, .argumentsTooDeep hroom (S.ofHead?_eq hform) hhead hinner, .error (.same rfl) hm₁⟩

lemma argumentsFault {g : Fault} (hroom : room.fits 1 = true)
    (hform : SpecialForm.ofHead? head = none) (hinner : (room.less 1).fits 1 = true)
    (hhead : S.Follows limit limit' (.expr (room.less 1) env head) m (.ok f m₁))
    (hargs : S.Follows limit limit' (.each ((room.less 1).less 1) env tail) m₁ (.error g m₂)) :
    S.Follows limit limit' (.expr room env (.list (head :: tail))) m (.error g m₂) := by
  intro room' m' hcov hm
  obtain ⟨_, hhead, ⟨-, hm₁⟩⟩ := hhead ((hcov.ok _).less 1) hm
  obtain ⟨_, hargs, _ | ⟨hg, hm₂⟩⟩ := hargs ((hcov.less 1).less 1) hm₁
  simp only [Job.translate, translate_list, List.map_cons]
  exact ⟨_, .argumentsFault (hcov.le.fits hroom) (S.ofHead?_eq hform) hhead
    ((hcov.le.less 1).fits hinner) hargs, .error hg hm₂⟩

/-- The value of the head is applied on the machine that the arguments left. -/
lemma application {args : List Value} (hroom : room.fits 1 = true)
    (hform : SpecialForm.ofHead? head = none) (hinner : (room.less 1).fits 1 = true)
    (hhead : S.Follows limit limit' (.expr (room.less 1) env head) m (.ok f m₁))
    (hargs : S.Follows limit limit' (.each ((room.less 1).less 1) env tail) m₁
      (.ok (.list args) m₂))
    (happly : S.Allows (.apply (room.less 1) f args) →
      S.Follows limit limit' (.apply (room.less 1) f args) m₂ r) :
    S.Follows limit limit' (.expr room env (.list (head :: tail))) m r := by
  intro room' m' hcov hm
  obtain ⟨_, hhead, ⟨hf, hm₁⟩⟩ := hhead ((hcov.ok _).less 1) hm
  obtain ⟨r₂, hargs, hr₂⟩ := hargs (((hcov.ok _).less 1).less 1) hm₁
  obtain ⟨m₂, rfl, hm₂, hvs⟩ := hr₂.list
  obtain ⟨r', happly, hr'⟩ := happly (S.apply.mpr ⟨hf, hvs⟩) (hcov.less 1) hm₂
  simp only [Job.translate, translate_list, List.map_cons]
  exact ⟨r', .application (hcov.le.fits hroom) (S.ofHead?_eq hform) hhead
    ((hcov.le.less 1).fits hinner) hargs happly, hr'⟩

end

/-! #### Forms, and expressions in order -/

lemma immediate {form : SpecialForm} {parts : List Value} {result : Except Fault Value}
    (h : form.immediate? room env parts = some result)
    (hjob : S.Allows (.form room env form parts)) :
    S.Follows limit limit' (.form room env form parts) m (.ofResult result m) := by
  intro room' m' hcov hm
  have hcov : room'.Covers room result := by rwa [Outcome.result_ofResult] at hcov
  obtain ⟨result', h', hresult⟩ := SpecialForm.immediate?_translate (hcov.immediate? h)
  refine ⟨_, .immediate h', .ofResult hm hresult fun v hv => ?_⟩
  obtain ⟨rfl, params, body, names, rfl, hnames, rfl⟩ := SpecialForm.immediate?_ok_cases (hv ▸ h)
  obtain rfl := eq_map_sym_of_paramNames hnames
  exact S.function hjob

/-- The bindings of a scope are followed in the environment that both sides made for it. -/
lemma letIn {bindings : List Value} {body : Value} (heven : bindings.length % 2 = 0)
    (hforeseen : S.Foreseen (m.pushScope env).store)
    (hscope : S.Inside env m.store.size →
      S.Follows limit limit' (.scope room m.store.size bindings body) (m.pushScope env) r) :
    S.Follows limit limit' (.form room env .letIn [.list bindings, body]) m r := by
  intro room' m' hcov hm
  obtain ⟨hspell, hinner⟩ := S.inherit hm.related hforeseen
  obtain ⟨r', hscope, hr'⟩ := hscope hinner hcov (hm.pushScope env)
  simp only [Job.translate, ← S.size_eq hm.related, hspell] at hscope
  simp only [Job.translate, List.map_cons, List.map_nil, translate_list]
  exact ⟨r', .letIn (by rwa [List.length_map]) hscope, hr'⟩

lemma cons {e v : Value} {rest vs : List Value}
    (hfirst : S.Follows limit limit' (.expr room env e) m (.ok v m₁))
    (hrest : S.Follows limit limit' (.each room env rest) m₁ (.ok (.list vs) m₂)) :
    S.Follows limit limit' (.each room env (e :: rest)) m (.ok (.list (v :: vs)) m₂) := by
  intro room' m' hcov hm
  obtain ⟨_, hfirst, ⟨hv, hm₁⟩⟩ := hfirst (hcov.ok _) hm
  obtain ⟨r₂, hrest, hr₂⟩ := hrest (hcov.ok _) hm₁
  obtain ⟨m₂, rfl, hm₂, hvs⟩ := hr₂.list
  have hall : S.Passes (.list (v :: vs)) := S.list.mpr (List.forall_mem_cons.mpr ⟨hv, hvs⟩)
  refine ⟨_, .cons hfirst hrest, ?_⟩
  rw [← List.map_cons, ← translate_list]
  exact .ok hall hm₂

/-! #### The application of a primitive -/

lemma primitive {p : Primitive} {args : List Value}
    (hroom : roomForPrimitive room p args m = .ok () m)
    (hjob : S.Allows (.apply room (.builtin p) args)) :
    S.Follows limit limit' (.apply room (.builtin p) args) m (.ofResult (p.apply args) m) := by
  intro room' m' hcov hm
  have hroom' : roomForPrimitive room' p (args.map (translate S.toTranslation id)) m' =
      .ok () m' := by
    rw [(keepsData_translate _).roomForPrimitive]
    exact roomForPrimitive_ok (hcov.le.roomForPrimitive hroom) m'
  refine ⟨_, .primitive hroom', ?_⟩
  rw [(keepsData_translate _).apply]
  refine .ofResult hm (.map fun _ => Fault.withLimit_of_apply) fun v hv => ?_
  rcases apply_cases hv with ⟨z, rfl⟩ | ⟨b, rfl⟩ | rfl
  · exact S.leaf rfl
  · exact S.leaf rfl
  · exact S.list.mpr (S.apply.mp hjob).2

/-! #### The call of a closure -/

section

variable {params : List String} {body : Value} {args : List Value}

/-- The body of a call is followed in the environment and the call frame that both sides made. -/
lemma body_of_call {room' : Room} {m' : Machine} (hargs : ∀ v ∈ args, S.Passes v)
    (hforeseen : S.Foreseen (m.pushArguments env params args).store)
    (hdepth : (m.depth : Int) < limit)
    (hbody : S.Inside env m.store.size → S.Follows limit limit'
      (.expr (room.less 2) m.store.size body) (m.pushArguments env params args).enter r)
    (hcov : room'.Covers room r.result) (hm : S.Machines limit limit' m m') :
    ∃ r', Evaluates limit'
        (.expr (room'.less 2) m'.store.size (body.translate S.toTranslation (S.spell env)))
        (m'.pushArguments (S.number env) (params.map (S.spell env))
          (args.map (translate S.toTranslation id))).enter r' ∧
      S.Outcomes limit limit' r r' := by
  obtain ⟨hspell, hinner⟩ := S.inherit hm.related (S.foreseen_of_createWith hforeseen)
  obtain ⟨r', hrun, hr'⟩ :=
    hbody hinner (hcov.less 2) ((hm.pushArguments hargs hforeseen).enter hdepth)
  simp only [Job.translate, ← S.size_eq hm.related, hspell] at hrun
  exact ⟨r', hrun, hr'⟩

lemma arity (hlen : params.length ≠ args.length) :
    S.Follows limit limit' (.apply room (.closure params body env) args) m
      (.error (.closureArity params.length args.length) m) := by
  intro room' m' hcov hm
  simp only [Job.translate, translate_closure]
  refine ⟨_, .arity (by rwa [List.length_map, List.length_map]), ?_⟩
  rw [List.length_map, List.length_map]
  exact .error (.same rfl) hm

variable (hlen : params.length = args.length) (hargs : ∀ v ∈ args, S.Passes v)
  (hforeseen : S.Foreseen (m.pushArguments env params args).store)

include hlen hargs hforeseen

lemma refused (hdepth : limit ≤ m.depth) :
    S.Follows limit limit' (.apply room (.closure params body env) args) m
      (.error (depthFault limit) (m.pushArguments env params args).refuse) := by
  intro room' m' hcov hm
  have hdepth' := Int.not_lt.mp (mt hm.lt_iff.mp (Int.not_lt.mpr hdepth))
  simp only [Job.translate, translate_closure]
  exact ⟨_, .refused (by rwa [List.length_map, List.length_map]) hdepth',
    .error .refused (hm.pushArguments hargs hforeseen).refuse⟩

variable (hdepth : (m.depth : Int) < limit)

include hdepth

lemma bodyTooDeep (hlacks : room.fits 2 = false) :
    S.Follows limit limit' (.apply room (.closure params body env) args) m
      (.error .stackDepth (m.pushArguments env params args).enter.leave) := by
  intro room' m' hcov hm
  obtain rfl := hcov.eq_of_stackDepth
  have hentered := (hm.pushArguments hargs hforeseen).enter hdepth
  simp only [Job.translate, translate_closure]
  exact ⟨_, .bodyTooDeep (by rwa [List.length_map, List.length_map]) (hm.lt_iff.mpr hdepth)
    hlacks, .error (.same rfl) (hentered.leave hm rfl rfl)⟩

lemma bodyFault {f : Fault} (hroom : room.fits 2 = true) (hend : m₁.depth = m.depth + 1)
    (hbody : S.Inside env m.store.size → S.Follows limit limit'
      (.expr (room.less 2) m.store.size body) (m.pushArguments env params args).enter
      (.error f m₁)) :
    S.Follows limit limit' (.apply room (.closure params body env) args) m
      (.error f m₁.leave) := by
  intro room' m' hcov hm
  obtain ⟨_, hrun, _ | ⟨hf, hm₁⟩⟩ := body_of_call hargs hforeseen hdepth hbody hcov hm
  simp only [Job.translate, translate_closure]
  exact ⟨_, .bodyFault (by rwa [List.length_map, List.length_map]) (hm.lt_iff.mpr hdepth)
    (hcov.le.fits hroom) hrun, .error hf (hm₁.leave hm hend hrun.depth_eq)⟩

lemma call {v : Value} (hroom : room.fits 2 = true) (hend : m₁.depth = m.depth + 1)
    (hbody : S.Inside env m.store.size → S.Follows limit limit'
      (.expr (room.less 2) m.store.size body) (m.pushArguments env params args).enter
      (.ok v m₁)) :
    S.Follows limit limit' (.apply room (.closure params body env) args) m (.ok v m₁.leave) := by
  intro room' m' hcov hm
  obtain ⟨_, hrun, ⟨hv, hm₁⟩⟩ := body_of_call hargs hforeseen hdepth hbody (hcov.ok v) hm
  simp only [Job.translate, translate_closure]
  exact ⟨_, .call (by rwa [List.length_map, List.length_map]) (hm.lt_iff.mpr hdepth)
    (hcov.le.fits hroom) hrun, .ok hv (hm₁.leave hm hend hrun.depth_eq)⟩

end

end Simulation.Follows

/-! ### Runs that correspond -/

open Value in
/-- **Simulation.** A run under the policy is followed when what it leaves is foreseen. -/
theorem Evaluates.simulate {S : Simulation} {limit limit' : Int} {job : Job} {m : Machine}
    {r : Outcome} (h : Evaluates limit job m r) (hforeseen : S.Foreseen r.machine.store)
    (hjob : S.Allows job) : S.Follows limit limit' job m r := by
  -- Each part is followed from the machines that the parts before it left. What is foreseen in the
  -- end is foreseen of every store before, since a run keeps the stores that it goes through.
  induction h with
  | tooDeep hlacks =>
      intro room' m' hcov hm
      obtain rfl := hcov.eq_of_stackDepth
      exact ⟨_, .tooDeep hlacks, .error (.same rfl) hm⟩
  | @bound room env name v m hroom hv =>
      intro room' m' hcov hm
      have hv' : m'.store.get? (S.number env) (S.spell env name) =
          some (v.translate S.toTranslation id) := by
        rw [S.get?_eq hm.related hforeseen hjob, hv, Option.map_some]
      exact ⟨_, .bound (hcov.le.fits hroom) hv', .ok (S.passes_of_get? hm.related hjob hv) hm⟩
  | @unbound room env name m hroom hv =>
      intro room' m' hcov hm
      have hv' : m'.store.get? (S.number env) (S.spell env name) = none := by
        rw [S.get?_eq hm.related hforeseen hjob, hv, Option.map_none]
      exact ⟨_, .unbound (hcov.le.fits hroom) hv', .error (.unbound env name) hm⟩
  | constant hroom he =>
      intro room' m' hcov hm
      refine ⟨_, .constant (hcov.le.fits hroom) (by rwa [isConstant_translate]), ?_⟩
      rw [translate_of_isConstant he id]
      exact .ok (S.constant hjob he) hm
  | formTooDeep hroom hform hinner =>
      intro room' m' hcov hm
      obtain rfl := hcov.eq_of_stackDepth
      simp only [Job.translate, translate_list, List.map_cons]
      exact ⟨_, .formTooDeep hroom (S.ofHead?_eq hform) hinner, .error (.same rfl) hm⟩
  | special hroom hform hinner _ ih =>
      intro room' m' hcov hm
      obtain ⟨r', hparts, hr'⟩ := ih hforeseen (S.special hjob hform) ((hcov.less 1).less 1) hm
      simp only [Job.translate, translate_list, List.map_cons]
      exact ⟨r', .special (hcov.le.fits hroom) (S.ofHead?_eq hform) ((hcov.le.less 1).fits hinner)
        hparts, hr'⟩
  | headFault hroom hform _ ih =>
      exact .headFault hroom hform (ih hforeseen (S.application hjob hform).1)
  | argumentsTooDeep hroom hform _ hinner ih =>
      exact .argumentsTooDeep hroom hform hinner (ih hforeseen (S.application hjob hform).1)
  | argumentsFault hroom hform _ hinner hargs ih₁ ih₂ =>
      have hforeseen₁ := S.foreseen_of_keeps hargs.keeps hforeseen
      exact .argumentsFault hroom hform hinner (ih₁ hforeseen₁ (S.application hjob hform).1)
        (ih₂ hforeseen (S.application hjob hform).2)
  | application hroom hform _ hinner hargs happly ih₁ ih₂ ih₃ =>
      have hforeseen₂ := S.foreseen_of_keeps happly.keeps hforeseen
      have hforeseen₁ := S.foreseen_of_keeps hargs.keeps hforeseen₂
      exact .application hroom hform hinner (ih₁ hforeseen₁ (S.application hjob hform).1)
        (ih₂ hforeseen₂ (S.application hjob hform).2) (ih₃ hforeseen)
  | immediate h => exact .immediate h hjob
  | define _ ih =>
      intro room' m' hcov hm
      obtain ⟨henv, hjob⟩ := S.define hjob
      obtain ⟨_, hvalue, ⟨hv, hm₁⟩⟩ := ih (S.foreseen_of_set hforeseen) hjob (hcov.ok _) hm
      exact ⟨_, .define hvalue, .ok hv (hm₁.bind henv _ hv)⟩
  | defineFault _ ih =>
      intro room' m' hcov hm
      obtain ⟨_, hvalue, _ | ⟨hf, hm₁⟩⟩ := ih hforeseen (S.define hjob).2 hcov hm
      exact ⟨_, .defineFault hvalue, .error hf hm₁⟩
  | letIn heven hscope ih =>
      exact .letIn heven (S.foreseen_of_keeps hscope.keeps hforeseen) fun hinner =>
        ih hforeseen (S.letIn hjob heven hinner)
  | sequence _ ih =>
      intro room' m' hcov hm
      obtain ⟨r₁, heach, hr₁⟩ := ih hforeseen (S.sequence hjob) (hcov.ok _) hm
      obtain ⟨m₁, rfl, hm₁, hvs⟩ := hr₁.list
      refine ⟨_, .sequence heach, ?_⟩
      rw [(keepsData_translate _).getLastD]
      exact .ok (S.getLastD hvs) hm₁
  | sequenceFault _ ih =>
      intro room' m' hcov hm
      obtain ⟨_, heach, _ | ⟨hf, hm₁⟩⟩ := ih hforeseen (S.sequence hjob) hcov hm
      exact ⟨_, .sequenceFault heach, .error hf hm₁⟩
  | conditionFault hlen _ ih =>
      intro room' m' hcov hm
      obtain ⟨_, hcond, _ | ⟨hf, hm₁⟩⟩ := ih hforeseen (S.choose hjob hlen).1 hcov hm
      exact ⟨_, .conditionFault (by rwa [List.length_map]) hcond, .error hf hm₁⟩
  | branch hlen _ hchosen hbranch ih₁ ih₂ =>
      intro room' m' hcov hm
      obtain ⟨hjob₁, hjob₂⟩ := S.choose hjob hlen
      have hforeseen₁ := S.foreseen_of_keeps hbranch.keeps hforeseen
      obtain ⟨_, hcond, ⟨-, hm₁⟩⟩ := ih₁ hforeseen₁ hjob₁ (hcov.ok _) hm
      obtain ⟨r', hbranch, hr'⟩ := ih₂ hforeseen (hjob₂ _ (mem_of_chosen? hchosen)) hcov hm₁
      exact ⟨r', .branch (by rwa [List.length_map]) hcond
        (by rw [chosen?_translate, hchosen, Option.map_some]) hbranch, hr'⟩
  | noBranch hlen _ hchosen ih =>
      intro room' m' hcov hm
      obtain ⟨_, hcond, ⟨-, hm₁⟩⟩ := ih hforeseen (S.choose hjob hlen).1 (hcov.ok _) hm
      exact ⟨_, .noBranch (by rwa [List.length_map]) hcond
        (by rw [chosen?_translate, hchosen, Option.map_none]), .ok (S.leaf rfl) hm₁⟩
  | nil =>
      intro room' m' hcov hm
      have hempty : S.Outcomes limit limit' (.ok (.list []) _) _ :=
        .ok (S.list.mpr (List.forall_mem_nil _)) hm
      rw [translate_list, List.map_nil] at hempty
      exact ⟨_, .nil, hempty⟩
  | firstFault _ ih =>
      intro room' m' hcov hm
      obtain ⟨_, hfirst, _ | ⟨hf, hm₁⟩⟩ := ih hforeseen (S.each hjob).1 hcov hm
      exact ⟨_, .firstFault hfirst, .error hf hm₁⟩
  | restFault _ hrest ih₁ ih₂ =>
      intro room' m' hcov hm
      have hforeseen₁ := S.foreseen_of_keeps hrest.keeps hforeseen
      obtain ⟨_, hfirst, ⟨-, hm₁⟩⟩ := ih₁ hforeseen₁ (S.each hjob).1 (hcov.ok _) hm
      obtain ⟨_, hrest, _ | ⟨hf, hm₂⟩⟩ := ih₂ hforeseen (S.each hjob).2 hcov hm₁
      exact ⟨_, .restFault hfirst hrest, .error hf hm₂⟩
  | cons _ hrest ih₁ ih₂ =>
      have hforeseen₁ := S.foreseen_of_keeps hrest.keeps hforeseen
      exact .cons (ih₁ hforeseen₁ (S.each hjob).1) (ih₂ hforeseen (S.each hjob).2)
  | scopeBody hlen _ ih =>
      intro room' m' hcov hm
      obtain ⟨r', hbody, hr'⟩ := ih hforeseen (S.scopeBody hjob hlen) hcov hm
      exact ⟨r', .scopeBody (by rwa [List.length_map]) hbody, hr'⟩
  | @scopeName room env key e rest body m hkey =>
      intro room' m' hcov hm
      refine ⟨_, .scopeName fun name heq => ?_, .error ?_ hm⟩
      · obtain ⟨name', hname'⟩ := exists_sym_of_translate heq
        exact hkey name' hname'
      · have hsame : room'.formFault key .letName = room.formFault key .letName := hcov.formFault
        rw [← hsame]
        exact .shown room' env key fun _ _ => rfl
  | scopeFault _ ih =>
      intro room' m' hcov hm
      obtain ⟨_, hvalue, _ | ⟨hf, hm₁⟩⟩ := ih hforeseen (S.scope hjob).2.1 hcov hm
      exact ⟨_, .scopeFault hvalue, .error hf hm₁⟩
  | scopeBinding _ hrest ih₁ ih₂ =>
      intro room' m' hcov hm
      have hforeseen₁ := S.foreseen_of_set (S.foreseen_of_keeps hrest.keeps hforeseen)
      obtain ⟨henv, hjob₁, hjob₂⟩ := S.scope hjob
      obtain ⟨_, hvalue, ⟨hv, hm₁⟩⟩ := ih₁ hforeseen₁ hjob₁ (hcov.ok _) hm
      obtain ⟨r', hrest, hr'⟩ := ih₂ hforeseen hjob₂ hcov (hm₁.bind henv _ hv)
      exact ⟨r', .scopeBinding hvalue hrest, hr'⟩
  | primitiveTooDeep hlacks =>
      intro room' m' hcov hm
      obtain rfl := hcov.eq_of_stackDepth
      rw [← (keepsData_translate _).roomForPrimitive] at hlacks
      exact ⟨_, .primitiveTooDeep (roomForPrimitive_error hlacks m'), .error (.same rfl) hm⟩
  | primitive hroom => exact .primitive hroom hjob
  | arity hlen => exact .arity hlen
  | refused hlen hdepth => exact .refused hlen (S.apply.mp hjob).2 hforeseen hdepth
  | bodyTooDeep hlen hdepth hlacks =>
      exact .bodyTooDeep hlen (S.apply.mp hjob).2 hforeseen hdepth hlacks
  | bodyFault hlen hdepth hroom hbody ih =>
      obtain ⟨hf, hargs⟩ := S.apply.mp hjob
      have hforeseen₀ := S.foreseen_of_keeps hbody.keeps hforeseen
      exact .bodyFault hlen hargs hforeseen₀ hdepth hroom hbody.depth_eq fun hinner =>
        ih hforeseen (S.body hf hinner)
  | call hlen hdepth hroom hbody ih =>
      obtain ⟨hf, hargs⟩ := S.apply.mp hjob
      have hforeseen₀ := S.foreseen_of_keeps hbody.keeps hforeseen
      exact .call hlen hargs hforeseen₀ hdepth hroom hbody.depth_eq fun hinner =>
        ih hforeseen (S.body hf hinner)
  | notCallable hf =>
      intro room' m' hcov hm
      refine ⟨_, .notCallable (by rwa [(keepsData_translate _).isFunction]), ?_⟩
      rw [(keepsData_translate _).notCallable, hcov.notCallable]
      exact .error (.same (Fault.withLimit_notCallable _ _)) hm

/-! ### Other numbers only -/

/-- A translation that keeps the names only renumbers a job. -/
lemma Job.translate_eq_renumber {T : Translation} (hspell : ∀ env, T.spell env = id) (job : Job) :
    job.translate T job.room = job.renumber T.number := by
  have hvalues : Value.translate T id = Value.renumber T.number :=
    funext (Value.translate_eq_renumber hspell)
  cases job <;> simp only [Job.translate, Job.renumber, Job.room, hspell, hvalues]

namespace Simulation

/-- A simulation that keeps the names, by a numbering of the environments. -/
def ofNumbering (number : ℕ → ℕ) (P : Policy) (Related : Store → Store → Prop)
    (hinner : ∀ {s s'}, Related s s' → ∀ outer, P.Inside outer s.size)
    (hsize : ∀ {s s'}, Related s s' → s'.size = number s.size)
    (hget : ∀ {s s'}, Related s s' → ∀ {room env name}, P.Allows (.expr room env (.sym name)) →
      s'.get? (number env) name = (s.get? env name).map (Value.renumber number))
    (hpasses : ∀ {s s'}, Related s s' → ∀ {room env name v},
      P.Allows (.expr room env (.sym name)) → s.get? env name = some v → P.Passes v)
    (hcreate : ∀ {s s'}, Related s s' → ∀ env,
      Related (s.create (some env)).2 (s'.create (some (number env))).2)
    (hset : ∀ {s s'}, Related s s' → ∀ {env}, ¬ P.IsSealed env → ∀ name {v}, P.Passes v →
      Related (s.set env name v) (s'.set (number env) name (v.renumber number))) : Simulation where
  toPolicy := P
  number := number
  spell _ := id
  Foreseen _ := True
  Related := Related
  ofName?_spell _ _ := rfl
  foreseen_of_keeps _ _ := trivial
  inherit h outer _ := ⟨rfl, hinner h outer⟩
  size_eq := hsize
  get?_eq h _ _ _ _ hname := by
    refine (hget h hname).trans (congrArg (Option.map · _) (funext fun v => ?_))
    rw [v.translate_eq_renumber fun _ => rfl]
  passes_of_get? := hpasses
  create := hcreate
  set h _ henv name v hv := by
    rw [v.translate_eq_renumber fun _ => rfl]
    exact hset h henv name hv

variable {S : Simulation} {limit limit' : Int} {r r' : Outcome}

lemma Outcomes.machines (h : S.Outcomes limit limit' r r') :
    S.Machines limit limit' r.machine r'.machine := by
  cases h with
  | ok _ hm => exact hm
  | error _ hm => exact hm

/-- The value with other numbers, the same fault, or the fault of one call more than each limit. -/
lemma Outcomes.result_cases (hspell : ∀ env, S.spell env = id)
    (h : S.Outcomes limit limit' r r') :
    r'.result = r.result.map (Value.renumber S.number) ∨
      r.result = .error (depthFault limit) ∧ r'.result = .error (depthFault limit') := by
  cases h with
  | ok => exact .inl (congrArg Except.ok (Value.translate_eq_renumber hspell _))
  | error hf =>
      refine (hf.eq_or_refused hspell).imp (congrArg Except.error) fun ⟨hf, hf'⟩ => ?_
      exact ⟨congrArg Except.error hf, congrArg Except.error hf'⟩

/-! ### More room -/

/-- Nothing is renumbered, and the stores are the same. -/
def same : Simulation :=
  .ofNumbering id (.ofReferences []) (fun s s' => s' = s) (fun _ _ => trivial)
    (congrArg Store.size)
    (fun h _ _ _ _ => by rw [h, funext Value.renumber_id]; exact Option.map_id'.symm)
    (fun _ _ _ _ _ _ _ => List.disjoint_nil_right _) (fun h _ => h ▸ rfl)
    (fun h _ _ _ v _ => by rw [h, v.renumber_id]; rfl)

end Simulation

lemma Value.translate_same (v : Value) : v.translate Simulation.same.toTranslation id = v :=
  (v.translate_eq_renumber fun _ => rfl).trans v.renumber_id

lemma Job.translate_same (job : Job) :
    job.translate Simulation.same.toTranslation job.room = job :=
  (job.translate_eq_renumber fun _ => rfl).trans job.renumber_id

/-- **More room.** An evaluation that does not end because it lacks room comes to the same in a
larger room, whatever happened to the call frames before. -/
theorem runIn_widen {limit : Int} {room room' : Room} {env : ℕ} {e : Value} (m m' : Machine)
    (hle : room.Le room') (hstore : m'.store = m.store) (hdepth : m'.depth = m.depth)
    (hr : Outcome.result (runIn limit room env e m) ≠ .error .stackDepth) :
    Outcome.result (runIn limit room' env e m') = Outcome.result (runIn limit room env e m) ∧
      (Outcome.machine (runIn limit room' env e m')).store =
        (Outcome.machine (runIn limit room env e m)).store := by
  have hjob : Simulation.same.Allows (.expr room env e) := List.disjoint_nil_right _
  have hmachines : Simulation.same.Machines limit limit m m' := ⟨hstore, by rw [hdepth]⟩
  obtain ⟨r', hrun', hout⟩ :=
    (evaluates_runIn limit room env e m).simulate trivial hjob (.inr ⟨hle, hr⟩) hmachines
  have hend : runIn limit room' env e m' = r' := evaluates_expr_iff.mp (e.translate_same ▸ hrun')
  rw [hend]
  refine ⟨?_, hout.machines.related⟩
  rcases hout.result_cases fun _ => rfl with heq | ⟨hf, hf'⟩
  · rw [heq]
    cases Outcome.result (runIn limit room env e m) with
    | ok v => exact congrArg Except.ok v.renumber_id
    | error f => rfl
  · exact hf'.trans hf.symm

end TinyLisp
