/-
Where faults come from.

No rule handles a fault: what goes wrong in a nested job ends the job around it
with the same fault. So the fault of a run is the fault that one of its jobs
raised by itself, and the jobs of a run are those that the first one leads to
along nested jobs.

* `Primitive.apply_error_cases`, `SpecialForm.immediate?_error_cases`: what goes
  wrong in a primitive and in the shape of a form.
* `Room.formFault_cases`, `Room.notCallable_cases`: faults that show a value.
* `Fault.withLimit`: a fault as it is under another limit.
* `Raises`: the faults that a job raises by itself.
* `Fails`: the faults that a job ends with.
* `Invokes.fails`: a fault of a nested job is a fault of the job around it.
* `Evaluates.origin`, `fails_iff_exists_raises` (**the origin of faults**): a job
  ends with the faults that are raised inside it.
-/
import TinyLisp.Proofs.Adequacy

namespace TinyLisp

/-- A mapped result fails as the result does. -/
lemma eq_error_of_map {α β : Type} {x : Except Fault α} {g : α → β} {f : Fault}
    (h : x.map g = .error f) : x = .error f := by
  cases x with
  | ok a => nomatch h
  | error g => exact congrArg Except.error (Except.error.inj h)

/-! ### What goes wrong in a primitive -/

namespace Primitive

variable {p : Primitive} {args : List Value} {f : Fault}

lemma twoIntegers_error_cases (h : p.twoIntegers args = .error f) :
    f = .primitiveArity p 2 args.length ∨ f = .primitiveType p := by
  unfold twoIntegers at h
  split at h
  · nomatch h
  · exact .inr (Except.error.inj h).symm
  · exact .inl (Except.error.inj h).symm

lemma oneValue_error (h : p.oneValue args = .error f) :
    f = .primitiveArity p 1 args.length := by
  unfold oneValue at h
  split at h
  · nomatch h
  · exact (Except.error.inj h).symm

lemma twoValues_error (h : p.twoValues args = .error f) :
    f = .primitiveArity p 2 args.length := by
  unfold twoValues at h
  split at h
  · nomatch h
  · exact (Except.error.inj h).symm

lemma quotient_error {a b : ℤ} (h : quotient a b = .error f) : f = .divisionByZero := by
  unfold quotient at h
  split at h
  · exact (Except.error.inj h).symm
  · nomatch h

/-- A primitive fails on the number of its arguments, on their types, or on a zero divisor. -/
lemma apply_error_cases (h : p.apply args = .error f) :
    (∃ expected, f = .primitiveArity p expected args.length) ∨ f = .primitiveType p ∨
      f = .divisionByZero := by
  have integers (h : p.twoIntegers args = .error f) :
      (∃ expected, f = .primitiveArity p expected args.length) ∨ f = .primitiveType p ∨
        f = .divisionByZero := by
    rcases twoIntegers_error_cases h with hf | hf
    · exact .inl ⟨2, hf⟩
    · exact .inr (.inl hf)
  cases p with
  | add | sub | mul | less | lessEqual | greater | greaterEqual =>
      exact integers (eq_error_of_map h)
  | div =>
      rw [apply] at h
      cases hargs : div.twoIntegers args with
      | error g =>
          rw [hargs] at h
          exact integers (hargs.trans (congrArg Except.error (Except.error.inj h)))
      | ok ab =>
          rw [hargs] at h
          exact .inr (.inr (quotient_error (eq_error_of_map h)))
  | equal => exact .inl ⟨2, twoValues_error (eq_error_of_map h)⟩
  | list => nomatch h
  | isList | isEmpty | count => exact .inl ⟨1, oneValue_error (eq_error_of_map h)⟩

end Primitive

/-! ### What goes wrong in the shape of a form -/

/-- A part of a form that its fault can show: one of the parts, or an item of a list among them. -/
def IsPartOf (parts : List Value) (part : Value) : Prop :=
  part ∈ parts ∨ ∃ items, .list items ∈ parts ∧ part ∈ items

section

variable {room : Room} {env : ℕ} {parts : List Value} {f : Fault}

lemma paramNames_error {params : List Value} (h : paramNames room params = .error f) :
    ∃ param ∈ params, f = room.formFault param .fnParam := by
  induction params with
  | nil => nomatch h
  | cons v rest ih =>
      cases v with
      | sym name =>
          obtain ⟨param, hmem, hf⟩ := ih (eq_error_of_map h)
          exact ⟨param, List.mem_cons_of_mem _ hmem, hf⟩
      | _ => exact ⟨_, List.mem_cons_self, (Except.error.inj h).symm⟩

lemma closureOf_error_cases (h : closureOf room env parts = .error f) :
    (∃ g, f = .form g) ∨ ∃ part fault, IsPartOf parts part ∧ f = room.formFault part fault := by
  unfold closureOf at h
  split at h
  · next params body =>
      obtain ⟨param, hmem, hf⟩ := paramNames_error (eq_error_of_map h)
      exact .inr ⟨param, _, .inr ⟨params, by simp, hmem⟩, hf⟩
  · exact .inr ⟨_, _, .inl (by simp), (Except.error.inj h).symm⟩
  · exact .inl ⟨_, (Except.error.inj h).symm⟩

/-- A form with a wrong shape has the wrong number of parts, or a part of the wrong type. -/
lemma SpecialForm.immediate?_error_cases {form : SpecialForm}
    (h : form.immediate? room env parts = some (.error f)) :
    (∃ g, f = .form g) ∨ ∃ part fault, IsPartOf parts part ∧ f = room.formFault part fault := by
  have shape {g : FormFault}
      (heq : some (Except.error (.form g) : Except Fault Value) = some (.error f)) :
      ∃ g, f = .form g :=
    ⟨g, (Except.error.inj (Option.some.inj heq)).symm⟩
  have shown {parts : List Value} {part : Value} {fault : String → FormFault}
      (hpart : IsPartOf parts part)
      (heq : some (Except.error (room.formFault part fault) : Except Fault Value) =
        some (.error f)) :
      ∃ part fault, IsPartOf parts part ∧ f = room.formFault part fault :=
    ⟨part, fault, hpart, (Except.error.inj (Option.some.inj heq)).symm⟩
  unfold immediate? at h
  split at h
  · nomatch h
  · exact .inr (shown (.inl (by simp)) h)
  · exact .inl (shape h)
  · split at h
    · nomatch h
    · exact .inl (shape h)
  · exact .inr (shown (.inl (by simp)) h)
  · exact .inl (shape h)
  · nomatch h
  · nomatch h
  · nomatch h
  · exact .inl (shape h)
  · exact closureOf_error_cases (Option.some.inj h)

end

/-! ### Faults that show a value -/

namespace Room

/-- A fault that shows a value shows some text, or it is that the value cannot be written, or that a
bounded room is too small to write it. -/
lemma shown_cases (room : Room) (frames : Unit → ℕ) (shown : Except ShowFault String)
    (fault : String → Fault) :
    (∃ text, room.faultWithin frames (fun _ => Fault.showing shown fault) = fault text) ∨
    (∃ g, room.faultWithin frames (fun _ => Fault.showing shown fault) = .display g) ∨
      room ≠ none ∧ room.faultWithin frames (fun _ => Fault.showing shown fault) = .stackDepth := by
  have hshown : (∃ text, Fault.showing shown fault = fault text) ∨
      ∃ g, Fault.showing shown fault = .display g := by
    cases shown with
    | ok text => exact .inl ⟨text, rfl⟩
    | error g => exact .inr ⟨g, rfl⟩
  cases room with
  | none => exact hshown.imp_right .inl
  | some left =>
      rw [faultWithin]
      split
      · exact hshown.imp_right .inl
      · exact .inr (.inr ⟨Option.some_ne_none left, rfl⟩)

lemma formFault_cases (room : Room) (part : Value) (fault : String → FormFault) :
    (∃ text, room.formFault part fault = .form (fault text)) ∨
    (∃ g, room.formFault part fault = .display g) ∨
      room ≠ none ∧ room.formFault part fault = .stackDepth :=
  room.shown_cases _ _ _

lemma notCallable_cases (room : Room) (v : Value) :
    (∃ text, room.notCallable v = .notCallable text) ∨
    (∃ g, room.notCallable v = .display g) ∨
      room ≠ none ∧ room.notCallable v = .stackDepth :=
  room.shown_cases _ _ _

end Room

/-! ### Faults under another limit -/

/-- A limit that can be shown is shown by the fault of a refused call. -/
lemma depthFault_eq {limit : Int} (h : (Text.decimal? limit).isSome) :
    depthFault limit = .callDepth limit := by
  unfold depthFault
  split
  · rfl
  · next hnone => exact absurd h (Option.not_isSome_iff_eq_none.mpr hnone)

namespace Fault

/-- A fault as it is under another limit: the fault of a refused call shows that limit. -/
def withLimit (limit : Int) : Fault → Fault
  | callDepth _ => callDepth limit
  | f => f

variable {limit : Int} {f : Fault}

lemma withLimit_formFault (room : Room) (part : Value) (fault : String → FormFault) :
    (room.formFault part fault).withLimit limit = room.formFault part fault := by
  rcases room.formFault_cases part fault with ⟨_, h⟩ | ⟨_, h⟩ | ⟨-, h⟩ <;> rw [h] <;> rfl

lemma withLimit_notCallable (room : Room) (v : Value) :
    (room.notCallable v).withLimit limit = room.notCallable v := by
  rcases room.notCallable_cases v with ⟨_, h⟩ | ⟨_, h⟩ | ⟨-, h⟩ <;> rw [h] <;> rfl

/-- No primitive fails with the fault of a refused call. -/
lemma withLimit_of_apply {p : Primitive} {args : List Value} (h : p.apply args = .error f) :
    f.withLimit limit = f := by
  rcases Primitive.apply_error_cases h with ⟨_, rfl⟩ | rfl | rfl <;> rfl

end Fault

/-! ### Faults that a job raises by itself -/

/-- A job on a machine raises a fault by itself, after the nested jobs before it. -/
inductive Raises (limit : Int) : Job × Machine → Fault → Prop where
  | tooDeep {room env e m} (hroom : room.fits 1 = false) :
    Raises limit (.expr room env e, m) .stackDepth
  | unbound {room env name m} (hroom : room.fits 1 = true) (hv : m.store.get? env name = none) :
    Raises limit (.expr room env (.sym name), m) (.unbound name)
  | formTooDeep {room env head tail form m} (hroom : room.fits 1 = true)
      (hform : SpecialForm.ofHead? head = some form) (hinner : (room.less 1).fits 1 = false) :
    Raises limit (.expr room env (.list (head :: tail)), m) .stackDepth
  | argumentsTooDeep {room env head tail m f m₁} (hroom : room.fits 1 = true)
      (hform : SpecialForm.ofHead? head = none)
      (hhead : Evaluates limit (.expr (room.less 1) env head) m (.ok f m₁))
      (hinner : (room.less 1).fits 1 = false) :
    Raises limit (.expr room env (.list (head :: tail)), m) .stackDepth
  | shape {room env form parts m f} (h : form.immediate? room env parts = some (.error f)) :
    Raises limit (.form room env form parts, m) f
  | scopeName {room env key e rest body m} (hkey : ∀ name, key ≠ .sym name) :
    Raises limit (.scope room env (key :: e :: rest) body, m) (room.formFault key .letName)
  | primitiveTooDeep {room p args m}
      (hroom : roomForPrimitive room p args m = .error .stackDepth m) :
    Raises limit (.apply room (.builtin p) args, m) .stackDepth
  | primitive {room p args m f} (hroom : roomForPrimitive room p args m = .ok () m)
      (h : p.apply args = .error f) :
    Raises limit (.apply room (.builtin p) args, m) f
  | arity {room params body env args m} (hlen : params.length ≠ args.length) :
    Raises limit (.apply room (.closure params body env) args, m)
      (.closureArity params.length args.length)
  | refused {room params body env args m} (hlen : params.length = args.length)
      (hdepth : limit ≤ m.depth) :
    Raises limit (.apply room (.closure params body env) args, m) (depthFault limit)
  | bodyTooDeep {room params body env args m} (hlen : params.length = args.length)
      (hdepth : (m.depth : Int) < limit) (hroom : room.fits 2 = false) :
    Raises limit (.apply room (.closure params body env) args, m) .stackDepth
  | notCallable {room f args m} (hf : f.isFunction = false) :
    Raises limit (.apply room f args, m) (room.notCallable f)

/-- A job on a machine ends with a fault. -/
def Fails (limit : Int) (c : Job × Machine) (f : Fault) : Prop :=
  ∃ m', Evaluates limit c.1 c.2 (.error f m')

variable {limit : Int} {c c' : Job × Machine} {f : Fault}

/-- A job ends with the fault that it raises. -/
lemma Raises.fails (h : Raises limit c f) : Fails limit c f := by
  cases h with
  | tooDeep hroom => exact ⟨_, .tooDeep hroom⟩
  | unbound hroom hv => exact ⟨_, .unbound hroom hv⟩
  | formTooDeep hroom hform hinner => exact ⟨_, .formTooDeep hroom hform hinner⟩
  | argumentsTooDeep hroom hform hhead hinner =>
      exact ⟨_, .argumentsTooDeep hroom hform hhead hinner⟩
  | shape h => exact ⟨_, .immediate h⟩
  | scopeName hkey => exact ⟨_, .scopeName hkey⟩
  | primitiveTooDeep hroom => exact ⟨_, .primitiveTooDeep hroom⟩
  | @primitive room p args m f hroom h =>
      have hrun : Evaluates limit (.apply room (.builtin p) args) m
        (.ofResult (p.apply args) m) := .primitive hroom
      rw [h] at hrun
      exact ⟨m, hrun⟩
  | arity hlen => exact ⟨_, .arity hlen⟩
  | refused hlen hdepth => exact ⟨_, .refused hlen hdepth⟩
  | bodyTooDeep hlen hdepth hroom => exact ⟨_, .bodyTooDeep hlen hdepth hroom⟩
  | notCallable hf => exact ⟨_, .notCallable hf⟩

/-- **Faults are not handled**: what a nested job ends with, the job around it ends with. -/
theorem Invokes.fails (h : Invokes limit c c') (hf : Fails limit c' f) : Fails limit c f := by
  obtain ⟨m', hrun⟩ := hf
  cases h with
  | special hroom hform hinner => exact ⟨_, .special hroom hform hinner hrun⟩
  | head hroom hform => exact ⟨_, .headFault hroom hform hrun⟩
  | arguments hroom hform hhead hinner =>
      exact ⟨_, .argumentsFault hroom hform hhead hinner hrun⟩
  | application hroom hform hhead hinner hargs =>
      exact ⟨_, .application hroom hform hhead hinner hargs hrun⟩
  | define => exact ⟨_, .defineFault hrun⟩
  | letIn heven => exact ⟨_, .letIn heven hrun⟩
  | sequence => exact ⟨_, .sequenceFault hrun⟩
  | condition hlen => exact ⟨_, .conditionFault hlen hrun⟩
  | branch hlen hcond hchosen => exact ⟨_, .branch hlen hcond hchosen hrun⟩
  | first => exact ⟨_, .firstFault hrun⟩
  | rest hfirst => exact ⟨_, .restFault hfirst hrun⟩
  | scopeBody hlen => exact ⟨_, .scopeBody hlen hrun⟩
  | scopeValue => exact ⟨_, .scopeFault hrun⟩
  | scopeRest hvalue => exact ⟨_, .scopeBinding hvalue hrun⟩
  | body hlen hdepth hroom => exact ⟨_, .bodyFault hlen hdepth hroom hrun⟩

/-! ### The origin of a fault -/

/-- Some job that a job leads to raises a fault by itself. -/
def RaisesInside (limit : Int) (c : Job × Machine) (f : Fault) : Prop :=
  ∃ c', Relation.ReflTransGen (Invokes limit) c c' ∧ Raises limit c' f

/-- The fault of an outcome is raised inside the job when the job raises it by itself. -/
lemma Raises.inside {g : Fault} {m : Machine} (h : Raises limit c g)
    (hf : Outcome.result (.error g m) = .error f) : RaisesInside limit c f := by
  obtain rfl : g = f := Except.error.inj hf
  exact ⟨c, .refl, h⟩

lemma RaisesInside.around (hstep : Invokes limit c c') (h : RaisesInside limit c' f) :
    RaisesInside limit c f := by
  obtain ⟨origin, hreach, hraises⟩ := h
  exact ⟨origin, .head hstep hreach, hraises⟩

/-- Every fault of a run was raised by one of its jobs. -/
theorem Evaluates.origin {job : Job} {m : Machine} {r : Outcome} (h : Evaluates limit job m r)
    (hf : r.result = .error f) : RaisesInside limit (job, m) f := by
  -- in each case the fault is the job's own or that of the last nested job that was started
  have noFault (v : Value) : (Except.ok v : Except Fault Value) ≠ .error f := fun heq => nomatch heq
  induction h with
  | bound | constant | define | sequence | noBranch | nil | cons | call =>
      exact absurd hf (noFault _)
  | tooDeep hroom => exact (Raises.tooDeep hroom).inside hf
  | unbound hroom hv => exact (Raises.unbound hroom hv).inside hf
  | formTooDeep hroom hform hinner => exact (Raises.formTooDeep hroom hform hinner).inside hf
  | special hroom hform hinner _ ih => exact (ih hf).around (.special hroom hform hinner)
  | headFault hroom hform _ ih => exact (ih hf).around (.head hroom hform)
  | argumentsTooDeep hroom hform hhead hinner =>
      exact (Raises.argumentsTooDeep hroom hform hhead hinner).inside hf
  | argumentsFault hroom hform hhead hinner _ _ ih =>
      exact (ih hf).around (.arguments hroom hform hhead hinner)
  | application hroom hform hhead hinner hargs _ _ _ ih =>
      exact (ih hf).around (.application hroom hform hhead hinner hargs)
  | @immediate room env form parts result m h =>
      cases result with
      | ok v => exact absurd hf (noFault v)
      | error g =>
          exact (Raises.shape h).inside hf
  | defineFault _ ih => exact (ih hf).around .define
  | letIn heven _ ih => exact (ih hf).around (.letIn heven)
  | sequenceFault _ ih => exact (ih hf).around .sequence
  | conditionFault hlen _ ih => exact (ih hf).around (.condition hlen)
  | branch hlen hcond hchosen _ _ ih => exact (ih hf).around (.branch hlen hcond hchosen)
  | firstFault _ ih => exact (ih hf).around .first
  | restFault hfirst _ _ ih => exact (ih hf).around (.rest hfirst)
  | scopeBody hlen _ ih => exact (ih hf).around (.scopeBody hlen)
  | scopeName hkey => exact (Raises.scopeName hkey).inside hf
  | scopeFault _ ih => exact (ih hf).around .scopeValue
  | scopeBinding hvalue _ _ ih => exact (ih hf).around (.scopeRest hvalue)
  | primitiveTooDeep hroom => exact (Raises.primitiveTooDeep hroom).inside hf
  | @primitive room p args m hroom =>
      cases happly : p.apply args with
      | ok v =>
          rw [happly] at hf
          exact absurd hf (noFault v)
      | error g =>
          rw [happly] at hf
          exact (Raises.primitive hroom happly).inside hf
  | arity hlen => exact (Raises.arity hlen).inside hf
  | refused hlen hdepth => exact (Raises.refused hlen hdepth).inside hf
  | bodyTooDeep hlen hdepth hroom => exact (Raises.bodyTooDeep hlen hdepth hroom).inside hf
  | bodyFault hlen hdepth hroom _ ih => exact (ih hf).around (.body hlen hdepth hroom)
  | notCallable hnot => exact (Raises.notCallable hnot).inside hf

/-- **The origin of faults**: a job ends with a fault exactly when a job that it leads to raises
that fault by itself. -/
theorem fails_iff_exists_raises : Fails limit c f ↔ RaisesInside limit c f := by
  refine ⟨fun ⟨_, hrun⟩ => hrun.origin rfl, ?_⟩
  rintro ⟨origin, hreach, hraises⟩
  induction hreach using Relation.ReflTransGen.head_induction_on with
  | refl => exact hraises.fails
  | head hstep _ ih => exact hstep.fails ih

/-- The fault of evaluating an expression is raised inside it. -/
lemma runIn_eq_error_iff {room : Room} {env : ℕ} {e : Value} {m : Machine} :
    Outcome.result (runIn limit room env e m) = .error f ↔
      RaisesInside limit (.expr room env e, m) f := by
  rw [← fails_iff_exists_raises]
  refine ⟨fun h => ?_, fun ⟨m', hrun⟩ => ?_⟩
  · cases hrun : runIn limit room env e m with
    | ok v m' => rw [hrun] at h; nomatch h
    | error g m' =>
        rw [hrun] at h
        cases h
        exact ⟨m', evaluates_expr_iff.mpr hrun⟩
  · rw [evaluates_expr_iff.mp hrun]
    rfl

end TinyLisp
