/-
The faults of evaluation.

With room without a bound, a program fails with one of six kinds of fault, all of
them of the language, but for one thing: the host writes no integer over the
digit limit. A fault that shows such an integer cannot be worded, and the
evaluation fails with the refusal of the host instead. Only two jobs word a fault
with an integer that is not part of the source: applying a computed value that is
no function, and refusing a call, which shows the limit on nested calls.

* `FaultKind.ofPrograms`: the six kinds.
* `LacksWording`: the jobs whose fault the host cannot word.
* `Raises.cases_of_computed`: what a job of a session raises by itself.
* `evaluation_fails_in_language` (**faults of evaluation**).
* `square_lacks_wording`: the square of an integer that can be written may be one
  that cannot, and applying it is no fault of the language.
-/
import TinyLisp.Proofs.OnePass
import TinyLisp.Proofs.Origins
import TinyLisp.Proofs.Showing
import TinyLisp.Proofs.Termination

namespace TinyLisp

open Relation (ReflTransGen)

/-! ### The kinds of fault of a program -/

/-- The kinds of fault that evaluating a program can come to. -/
def FaultKind.ofPrograms : List FaultKind :=
  [symbolNotFound, argumentArity, argumentType, notCallable, divisionByZero, recursion]

/-- They are all of the language. -/
lemma Fault.isReported_of_mem_ofPrograms {f : Fault} (h : f.kind ∈ FaultKind.ofPrograms) :
    f.isReported = true := by
  have hall : ∀ k ∈ FaultKind.ofPrograms, k.lineage.contains .language = true := by decide
  exact hall _ h

lemma FormFault.kind_mem_ofPrograms (g : FormFault) :
    (Fault.form g).kind ∈ FaultKind.ofPrograms := by
  cases g <;> simp [Fault.kind, FormFault.kind, FaultKind.ofPrograms]

/-! ### Room without a bound -/

/-- A nested job of one with room without a bound has room without a bound. -/
lemma Invokes.room_eq_none {limit : Int} {c c' : Job × Machine} (h : Invokes limit c c')
    (hroom : c.1.room = none) : c'.1.room = none := by
  cases h with
  | define | letIn | sequence | condition | branch | first | rest | scopeBody | scopeValue
  | scopeRest => exact hroom
  | special | head | arguments | application | body =>
      obtain rfl := hroom
      rfl

lemma room_eq_none_of_reflTransGen {limit : Int} {c c' : Job × Machine}
    (h : ReflTransGen (Invokes limit) c c') (hroom : c.1.room = none) : c'.1.room = none := by
  induction h with
  | refl => exact hroom
  | tail _ hstep ih => exact hstep.room_eq_none ih

/-! ### What a job raises by itself -/

/-- The jobs whose fault shows an integer that the host does not write: one that is no function, in
the place of a function, and the limit of a refused call. -/
inductive LacksWording (limit : Int) : Job × Machine → Prop where
  | operand {v args m} (hv : v.isFunction = false) (hnot : ¬ v.AllLeaves Value.IsShown) :
    LacksWording limit (.apply none v args, m)
  | limit {params body env args m} (hlen : params.length = args.length)
      (hdepth : limit ≤ m.depth) (hnot : ¬ (Text.decimal? limit).isSome) :
    LacksWording limit (.apply none (.closure params body env) args, m)

section

variable {limit : Int} {c : Job × Machine} {f : Fault}

/-- A readable part of a form can be shown, so its fault is one of the shape of the form. -/
lemma formFault_of_readable {part : Value} (h : part.Readable) (fault : String → FormFault) :
    ∃ g, Room.formFault none part fault = .form g := by
  obtain ⟨text, htext⟩ := Value.exists_inspect h.allShown
  refine ⟨fault text, ?_⟩
  rw [Room.formFault, Room.faultWithin_none, htext]
  rfl

lemma readable_of_isPartOf {parts : List Value} {part : Value} (h : IsPartOf parts part)
    (hparts : ∀ e ∈ parts, e.Readable) : part.Readable := by
  rcases h with hmem | ⟨items, hitems, hmem⟩
  · exact hparts part hmem
  · exact Value.allLeaves_list.mp (hparts _ hitems) part hmem

lemma notCallable_of_shown {v : Value} {text : String} (h : v.print = .ok text) :
    Room.notCallable none v = .notCallable text := by
  rw [Room.notCallable, Room.faultWithin_none, h]
  rfl

lemma notCallable_of_not_shown {v : Value} (hv : v.Computed)
    (hnot : ¬ v.AllLeaves Value.IsShown) : Room.notCallable none v = .display .longInteger := by
  rw [Room.notCallable, Room.faultWithin_none, hv.print_cases.2 hnot]
  rfl

lemma depthFault_of_not_shown (h : ¬ (Text.decimal? limit).isSome) :
    depthFault limit = .display .longInteger := by
  unfold depthFault
  split
  · next digits hdigits => exact absurd (Option.isSome_of_eq_some hdigits) h
  · rfl

/-- **What a job raises by itself** is of the language, unless the host cannot word it. -/
theorem Raises.cases_of_computed (h : Raises limit c f) (hroom : c.1.room = none)
    (hjob : c.1.Obeys .computed c.2.store.size) :
    f.kind ∈ FaultKind.ofPrograms ∨ (f = .display .longInteger ∧ LacksWording limit c) := by
  cases h with
  -- room without a bound is never too small
  | tooDeep hfits | formTooDeep _ _ hfits | argumentsTooDeep _ _ _ hfits
  | bodyTooDeep _ _ hfits =>
      obtain rfl := hroom
      nomatch hfits
  | @primitiveTooDeep room p args m hfits =>
      obtain rfl : room = none := hroom
      unfold roomForPrimitive at hfits
      split at hfits <;> nomatch hfits
  | unbound => exact .inl (by simp [Fault.kind, FaultKind.ofPrograms])
  -- a part that such a fault shows comes from a text, so it can be shown
  | @shape room env form parts m f h =>
      obtain rfl : room = none := hroom
      rcases SpecialForm.immediate?_error_cases h with ⟨g, rfl⟩ | ⟨part, fault, hpart, rfl⟩
      · exact .inl g.kind_mem_ofPrograms
      · obtain ⟨g, hg⟩ := formFault_of_readable (readable_of_isPartOf hpart hjob.2) fault
        exact .inl (hg ▸ g.kind_mem_ofPrograms)
  | @scopeName room env key e rest body m hkey =>
      obtain rfl : room = none := hroom
      obtain ⟨g, hg⟩ := formFault_of_readable (hjob.2.1 key List.mem_cons_self) .letName
      exact .inl (hg ▸ g.kind_mem_ofPrograms)
  | primitive _ h =>
      rcases Primitive.apply_error_cases h with ⟨_, rfl⟩ | rfl | rfl <;>
        exact .inl (by simp [Fault.kind, FaultKind.ofPrograms])
  | arity => exact .inl (by simp [Fault.kind, FaultKind.ofPrograms])
  -- what is left are the faults that show a limit or a computed value, where wording may fail
  | @refused room params body env args m hlen hdepth =>
      obtain rfl : room = none := hroom
      by_cases hshown : (Text.decimal? limit).isSome
      · rw [depthFault_eq hshown]
        exact .inl (by simp [Fault.kind, FaultKind.ofPrograms])
      · exact .inr ⟨depthFault_of_not_shown hshown, .limit hlen hdepth hshown⟩
  | @notCallable room v args m hv =>
      obtain rfl : room = none := hroom
      by_cases hshown : v.AllLeaves Value.IsShown
      · obtain ⟨text, htext⟩ := hjob.1.print_cases.1 hshown
        rw [notCallable_of_shown htext]
        exact .inl (by simp [Fault.kind, FaultKind.ofPrograms])
      · exact .inr ⟨notCallable_of_not_shown hjob.1 hshown, .operand hv hshown⟩

/-- A job whose fault cannot be worded raises the refusal of the host. -/
lemma LacksWording.raises (h : LacksWording limit c)
    (hjob : c.1.Obeys .computed c.2.store.size) : Raises limit c (.display .longInteger) := by
  cases h with
  | operand hv hnot =>
      rw [← notCallable_of_not_shown hjob.1 hnot]
      exact .notCallable hv
  | limit hlen hdepth hnot =>
      rw [← depthFault_of_not_shown hnot]
      exact .refused hlen hdepth

/-! ### What a run fails with -/

/-- Some job that a job leads to cannot have its fault worded. -/
def LacksWordingInside (limit : Int) (c : Job × Machine) : Prop :=
  ∃ c', ReflTransGen (Invokes limit) c c' ∧ LacksWording limit c'

/-- The faults of a job on computed values with room without a bound. -/
lemma RaisesInside.cases_of_computed (h : RaisesInside limit c f) (hroom : c.1.room = none)
    (hstore : c.2.store.Obeys .computed) (hjob : c.1.Obeys .computed c.2.store.size) :
    f.kind ∈ FaultKind.ofPrograms ∨ (f = .display .longInteger ∧ LacksWordingInside limit c) := by
  obtain ⟨origin, hreach, hraises⟩ := h
  have hjob' := (obeys_of_reflTransGen hreach hstore hjob).2
  rcases hraises.cases_of_computed (room_eq_none_of_reflTransGen hreach hroom) hjob' with
    hkind | ⟨hf, hlacks⟩
  · exact .inl hkind
  · exact .inr ⟨hf, origin, hreach, hlacks⟩

lemma LacksWordingInside.raises (h : LacksWordingInside limit c)
    (hstore : c.2.store.Obeys .computed) (hjob : c.1.Obeys .computed c.2.store.size) :
    RaisesInside limit c (.display .longInteger) := by
  obtain ⟨origin, hreach, hlacks⟩ := h
  exact ⟨origin, hreach, hlacks.raises (obeys_of_reflTransGen hreach hstore hjob).2⟩

end

/-- The evaluation of a readable form in a store of computed values. -/
lemma runIn_cases_of_computed (limit : Int) {form : Value} {m : Machine} (hform : form.Readable)
    (hstore : m.store.Obeys .computed) :
    let result := Outcome.result (runIn limit none Session.global form m)
    let start : Job × Machine := (.expr none Session.global form, m)
    (¬ LacksWordingInside limit start ∧
        ((∃ v, result = .ok v) ∨ ∃ f, result = .error f ∧ f.kind ∈ FaultKind.ofPrograms)) ∨
      (LacksWordingInside limit start ∧ result = .error (.display .longInteger)) := by
  intro result start
  have hjob : start.1.Obeys .computed m.store.size := ⟨trivial, hform⟩
  by_cases hlacks : LacksWordingInside limit start
  · exact .inr ⟨hlacks, runIn_eq_error_iff.mpr (hlacks.raises hstore hjob)⟩
  · refine .inl ⟨hlacks, ?_⟩
    cases hresult : result with
    | ok v => exact .inl ⟨v, rfl⟩
    | error f =>
        have hraised := (runIn_eq_error_iff.mp hresult).cases_of_computed rfl hstore hjob
        rcases hraised with hkind | ⟨-, hinside⟩
        · exact .inr ⟨f, rfl, hkind⟩
        · exact absurd hinside hlacks

/-- A value in the place of a function. -/
lemma applyIn_of_not_function {limit : Int} {v : Value} (hv : v.isFunction = false)
    (args : List Value) (m : Machine) :
    applyIn limit none v args m = .error (Room.notCallable none v) m :=
  evaluates_apply_iff.mp (.notCallable hv)

/-- A limit that can be shown leaves the values in the place of functions. -/
lemma lacksWording_iff_of_shown {limit : Int} {c : Job × Machine}
    (h : (Text.decimal? limit).isSome) :
    LacksWording limit c ↔ ∃ v args m, c = (.apply none v args, m) ∧ v.isFunction = false ∧
      ¬ v.AllLeaves Value.IsShown := by
  refine ⟨fun hlacks => ?_, ?_⟩
  · cases hlacks with
    | operand hv hnot => exact ⟨_, _, _, rfl, hv, hnot⟩
    | limit _ _ hnot => exact absurd h hnot
  · rintro ⟨v, args, m, rfl, hv, hnot⟩
    exact .operand hv hnot

lemma lacksWordingInside_iff_of_shown {limit : Int} {c : Job × Machine}
    (h : (Text.decimal? limit).isSome) :
    LacksWordingInside limit c ↔ ∃ v args m,
      ReflTransGen (Invokes limit) c (.apply none v args, m) ∧ v.isFunction = false ∧
        ¬ v.AllLeaves Value.IsShown := by
  simp only [LacksWordingInside, lacksWording_iff_of_shown h]
  refine ⟨?_, ?_⟩
  · rintro ⟨_, hreach, v, args, m, rfl, hv, hnot⟩
    exact ⟨v, args, m, hreach, hv, hnot⟩
  · rintro ⟨v, args, m, hreach, hv, hnot⟩
    exact ⟨_, hreach, v, args, m, rfl, hv, hnot⟩

/-- **Faults of evaluation.** In every state that a session on texts comes to, evaluating a form of
a text gives a value or a fault of the language, of one of six kinds, exactly when no job inside
lacks the wording of its fault; else it fails with the refusal of the host to write an integer. A
value that is no function cannot be applied: the fault says so and shows the value if all its
integers can be written, and else it is that refusal. With a limit on nested calls that comes from
a setting there is no other cause of it. -/
theorem evaluation_fails_in_language {guard : CallGuard} {s₀ s : Session}
    (hstart : Session.start guard none = .ok s₀) (hleads : s₀.Leads s) {source : String}
    {forms : List Value} {form : Value} (hread : readAll source = .ok forms)
    (hform : form ∈ forms) :
    let limit := s.guard.limit
    let m : Machine := ⟨s.store, s.guard.depth, []⟩
    let start : Job × Machine := (.expr none Session.global form, m)
    let result := Outcome.result (runIn limit none Session.global form m)
    (((∃ v, result = .ok v) ∨
        ∃ f, result = .error f ∧ f.isReported = true ∧ f.kind ∈ FaultKind.ofPrograms) ↔
      ¬ LacksWordingInside limit start) ∧
    (LacksWordingInside limit start → result = .error (.display .longInteger)) ∧
    (∀ v args m', v.Computed → v.isFunction = false →
      (v.AllLeaves Value.IsShown → ∃ text, v.print = .ok text ∧
        applyIn limit none v args m' = .error (.notCallable text) m') ∧
      (¬ v.AllLeaves Value.IsShown →
        applyIn limit none v args m' = .error (.display .longInteger) m')) ∧
    (s.guard.override = none → (LacksWordingInside limit start ↔
      ∃ v args m', ReflTransGen (Invokes limit) start (.apply none v args, m') ∧
        v.isFunction = false ∧ ¬ v.AllLeaves Value.IsShown)) := by
  intro limit m start result
  -- all values that the session holds are computed, which leaves two ways for the run to end
  have hs₀ := Session.start_obeys Discipline.computed_forTexts hstart
  have hs := hleads.obeys Discipline.computed_forTexts hs₀
  have hform' := readAll_readable hread form hform
  have hstore : m.store.Obeys .computed := hs.store
  have hcases := runIn_cases_of_computed limit hform' hstore
  have hlanguage : Fault.isReported (.display .longInteger) = false := by decide
  refine ⟨?_, ?_, fun v args m' hv hnot => ⟨fun hshown => ?_, fun hshown => ?_⟩, fun hguard => ?_⟩
  · -- the two ways exclude each other: the refusal of the host is no fault of the language
    rcases hcases with ⟨hnot, hgood⟩ | ⟨h, hbad⟩
    · refine iff_of_true ?_ hnot
      rcases hgood with hvalue | ⟨f, hf, hkind⟩
      · exact .inl hvalue
      · exact .inr ⟨f, hf, Fault.isReported_of_mem_ofPrograms hkind, hkind⟩
    · refine iff_of_false ?_ (not_not_intro h)
      rintro (⟨v, hv⟩ | ⟨f, hf, hreported, -⟩)
      · nomatch hbad.symm.trans hv
      · obtain rfl := Except.error.inj (hbad.symm.trans hf)
        exact absurd hreported (by rw [hlanguage]; exact Bool.false_ne_true)
  · intro hlacks
    rcases hcases with ⟨hnot, -⟩ | ⟨-, hbad⟩
    · exact absurd hlacks hnot
    · exact hbad
  · -- a value that cannot be called is shown in the fault when all its integers can be written
    obtain ⟨text, htext⟩ := hv.print_cases.1 hshown
    refine ⟨text, htext, ?_⟩
    rw [applyIn_of_not_function hnot, notCallable_of_shown htext]
  · rw [applyIn_of_not_function hnot, notCallable_of_not_shown hv hshown]
  · -- the limit of a setting can be written, so no refused call lacks its wording
    have hsetting := isSome_decimal?_depthSetting s.guard.setting
    refine lacksWordingInside_iff_of_shown ?_
    simpa only [limit, CallGuard.limit, hguard, Option.getD_none] using hsetting

/-- In a new session the number one, in the place of a function, is shown as what cannot be
called. -/
theorem one_is_not_callable :
    let s : Session := ⟨Session.initialStore, .ofSetting none, none⟩
    let m : Machine := ⟨Session.initialStore, 0, []⟩
    ∃ text, (Value.int 1).print = .ok text ∧
      applyIn s.guard.limit none (.int 1) [] m = .error (.notCallable text) m := by
  intro s m
  have htokens : Token.ofSource "(1)" = [⟨.openParen, "("⟩, ⟨.atom, "1"⟩, ⟨.closeParen, ")"⟩] := by
    cbv
  have hread : readAll "(1)" = .ok [.list [.int 1]] :=
    readAll_of_tokens htokens rfl (List.cons_ne_nil _ _)
  have hshown : (Value.int 1).AllLeaves Value.IsShown :=
    Value.allLeaves_int.mpr
      (Value.isShown_int.mpr (isSome_decimal?_of_digits (by decide : 1 ≤ _) (by decide)))
  have hcomputed : (Value.int 1).Computed := Value.allLeaves_int.mpr trivial
  have hstart : Session.start (.ofSetting none) none = .ok s := rfl
  obtain ⟨-, -, happly, -⟩ :=
    evaluation_fails_in_language hstart .refl hread (List.mem_singleton.mpr rfl)
  exact (happly (.int 1) [] m hcomputed rfl).1 hshown

/-! ### A fault without wording -/

/-- Every primitive is bound in the global environment of a new session. -/
lemma get?_initialStore (p : Primitive) :
    Session.initialStore.get? Session.global p.name = some (.builtin p) := by
  have hchain : Session.initialStore.chain Session.global = [Session.global] := by
    rw [Store.chain, if_pos (by decide)]
    rfl
  rw [Store.get?, Store.find?, hchain]
  cases p <;> rfl

/-- The product of an integer with itself, in a new session. -/
lemma evaluates_square (limit : Int) (n : ℤ) :
    let m : Machine := ⟨Session.initialStore, 0, []⟩
    Evaluates limit (.expr none Session.global (.list [.sym "*", .int n, .int n])) m
      (.ok (.int (n * n)) m) := by
  intro m
  have hhead : Evaluates limit (.expr none Session.global (.sym "*")) m
      (.ok (.builtin .mul) m) := .bound rfl (get?_initialStore .mul)
  have hargs : Evaluates limit (.each none Session.global [.int n, .int n]) m
      (.ok (.list [.int n, .int n]) m) :=
    .cons (.constant rfl rfl) (.cons (.constant rfl rfl) .nil)
  exact .application rfl rfl hhead rfl hargs (.primitive rfl)

lemma isSymbol_star : IsSymbol "*" :=
  ⟨isAtom_of_all (by decide) rfl, by decide, by decide, by decide, rfl, by decide⟩

/-- An integer that can be written, whose square cannot be, gives a text whose evaluation in a new
session puts the square in the place of a function and fails with the refusal of the host. -/
lemma square_lacks_wording {n : ℤ} (hn : (Text.decimal? n).isSome)
    (hsquare : ¬ (Text.decimal? (n * n)).isSome) (limit : Int) :
    let m : Machine := ⟨Session.initialStore, 0, []⟩
    let form : Value := .list [.list [.sym "*", .int n, .int n]]
    ∃ source, form.print = .ok source ∧ readAll source = .ok [form] ∧
      Outcome.result (runIn limit none Session.global form m) = .error (.display .longInteger) := by
  intro m form
  have hform : form.Readable := by
    refine .list fun v hv => ?_
    obtain rfl := List.mem_singleton.mp hv
    refine .list fun v hv => ?_
    simp only [List.mem_cons, List.not_mem_nil, or_false, or_self] at hv
    rcases hv with rfl | rfl
    · exact .leaf (by simp) isSymbol_star
    · exact Value.allLeaves_int.mpr hn
  obtain ⟨source, hprint, hread⟩ := readAll_print hform
  have hnot : ¬ (Value.int (n * n)).AllLeaves Value.IsShown := fun h =>
    hsquare (Value.isShown_int.mp (Value.allLeaves_int.mp h))
  have hreach : Invokes limit (.expr none Session.global form, m)
      (.apply none (.int (n * n)) [], m) :=
    .application rfl rfl (evaluates_square limit n) rfl .nil
  have hlacks : LacksWordingInside limit (.expr none Session.global form, m) :=
    ⟨_, .single hreach, .operand rfl hnot⟩
  have hstore : m.store.Obeys .computed := Session.initialStore_obeys Discipline.computed_forTexts
  exact ⟨source, hprint, hread,
    runIn_eq_error_iff.mpr (hlacks.raises hstore ⟨trivial, hform⟩)⟩

/-- The square of a one with 2200 zeros, in the place of a function of a text that a new session
evaluates, fails with a fault that is none of the language. -/
theorem long_square_lacks_wording :
    let n : ℤ := Int.ofNat (Nat.pow 10 2200)
    let s : Session := ⟨Session.initialStore, .ofSetting none, none⟩
    let form : Value := .list [.list [.sym "*", .int n, .int n]]
    Session.start (.ofSetting none) none = .ok s ∧
      (∃ source, form.print = .ok source ∧ readAll source = .ok [form] ∧
        Outcome.result (runIn s.guard.limit none Session.global form ⟨s.store, 0, []⟩) =
          .error (.display .longInteger)) ∧
      Fault.isReported (.display .longInteger) = false :=
  ⟨rfl, square_lacks_wording (by decide +kernel) (by decide +kernel) _, by decide⟩

end TinyLisp
