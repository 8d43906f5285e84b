/-
Translated values.

A translation gives every environment another number and says what the names in it
are called on the other side. It goes through source text, where the names of one
environment are called as that environment says, and through closures, each of
which takes its names from the environment that it captured. What comes out of an
evaluation is data, which a translation keeps but for what is inside of closures.

* `Translation`, `Value.translate`: a value on the other side of a translation.
* `keepsData_translate`, `translate_eq_renumber`: translated results, and
  translations that keep the names.
* `Translation.Matches`, `Translation.Results`: faults and results that correspond.
* `Matches.kind_eq`, `Matches.eq_withLimit`: faults that correspond are of one kind,
  and where the names are kept only the limit tells them apart.
* `closureOf_translate`, `SpecialForm.immediate?_translate`: what a form without
  evaluated parts comes to.
-/
import TinyLisp.Proofs.Origins
import TinyLisp.Proofs.Renumbering

namespace TinyLisp

/-- Another way to number the environments and to spell the names in them. -/
structure Translation where
  /-- The number of an environment on the other side. -/
  number : ℕ → ℕ
  /-- What a name in an environment is called on the other side. -/
  spell : ℕ → String → String

/-! ### Translating a value -/

namespace Value

mutual

/-- A value on the other side, its symbols spelled in one way and its closures each in the way of
their environment. -/
def translate (T : Translation) (spelling : String → String) : Value → Value
  | sym name => sym (spelling name)
  | list items => list (translateAll T spelling items)
  | closure params body env =>
    closure (params.map (T.spell env)) (translate T (T.spell env) body) (T.number env)
  | v => v

/-- The values on the other side. -/
def translateAll (T : Translation) (spelling : String → String) : List Value → List Value
  | [] => []
  | v :: rest => translate T spelling v :: translateAll T spelling rest

end

variable {T : Translation} {spelling : String → String}

lemma translateAll_eq_map (items : List Value) :
    translateAll T spelling items = items.map (translate T spelling) := by
  induction items with
  | nil => rfl
  | cons v rest ih => rw [translateAll, ih, List.map_cons]

@[simp] lemma translate_list (items : List Value) :
    (list items).translate T spelling = list (items.map (translate T spelling)) := by
  rw [translate, translateAll_eq_map]

@[simp] lemma translate_sym (name : String) :
    (sym name).translate T spelling = sym (spelling name) := rfl

lemma translate_closure (params : List String) (body : Value) (env : ℕ) :
    (closure params body env).translate T spelling =
      closure (params.map (T.spell env)) (body.translate T (T.spell env)) (T.number env) := by
  rw [translate]

/-- A translated result is the same data. -/
lemma keepsData_translate (T : Translation) : KeepsData (translate T id) where
  list := translate_list
  closure params body env := ⟨_, _, _, translate_closure params body env⟩
  leaf {v} hv := by cases v <;> first | rfl | nomatch hv

/-- A translation that keeps the names only renumbers. -/
lemma translate_eq_renumber (hspell : ∀ env, T.spell env = id) (v : Value) :
    v.translate T id = v.renumber T.number := by
  induction v using Value.induct with
  | list items ih => rw [translate_list, renumber_list, List.map_congr_left ih]
  | closure params body env ih =>
      rw [translate_closure, renumber_closure, hspell, List.map_id, ih]
  | nil | bool _ | int _ | str _ | sym _ | kw _ | builtin _ | foreign _ => rfl

/-! ### Source text -/

lemma isConstant_translate (e : Value) :
    (e.translate T spelling).isConstant = e.isConstant := by
  cases e with
  | list items => cases items <;> simp [isConstant]
  | closure params body env => rw [translate_closure]; rfl
  | _ => rfl

/-- How symbols are spelled does not matter to an expression that is its own value. -/
lemma translate_of_isConstant {e : Value} (h : e.isConstant = true)
    (spelling' : String → String) : e.translate T spelling = e.translate T spelling' := by
  cases e with
  | list items =>
      cases items with
      | nil => rw [translate_list, translate_list, List.map_nil, List.map_nil]
      | cons head tail => nomatch h
  | sym name => nomatch h
  | closure params body env => rw [translate_closure, translate_closure]
  | _ => rfl

lemma ofHead?_translate
    (hspelling : ∀ name, SpecialForm.ofName? (spelling name) = SpecialForm.ofName? name)
    (head : Value) :
    SpecialForm.ofHead? (head.translate T spelling) = SpecialForm.ofHead? head := by
  cases head with
  | sym name => exact hspelling name
  | list items => rw [translate_list]; rfl
  | closure params body env => rw [translate_closure]; rfl
  | _ => rfl

/-- Only a symbol is translated to a symbol. -/
lemma exists_sym_of_translate {v : Value} {name : String}
    (h : v.translate T spelling = sym name) : ∃ name', v = sym name' := by
  cases v with
  | sym name' => exact ⟨name', rfl⟩
  | list items => rw [translate_list] at h; nomatch h
  | closure params body env => rw [translate_closure] at h; nomatch h
  | _ => nomatch h

/-- Only a list is translated to a list. -/
lemma exists_list_of_translate {v : Value} {items : List Value}
    (h : v.translate T spelling = list items) : ∃ items', v = list items' := by
  cases v with
  | list items' => exact ⟨items', rfl⟩
  | closure params body env => rw [translate_closure] at h; nomatch h
  | _ => nomatch h

lemma chosen?_translate (c : Value) (branches : List Value) :
    chosen? (c.translate T id) (branches.map (translate T spelling)) =
      (chosen? c branches).map (translate T spelling) := by
  cases branches with
  | nil => rfl
  | cons consequent rest =>
      rw [List.map_cons, chosen?, chosen?, (keepsData_translate T).isTruthy]
      split
      · rfl
      · rw [List.head?_map]

end Value

/-! ### The diagnostic form -/

/-- Two results that both succeed, or fail with the same fault. -/
def SameFault {ε α β : Type} (x : Except ε α) (y : Except ε β) : Prop :=
  x.map (fun _ => ()) = y.map fun _ => ()

lemma SameFault.bind {ε α β γ δ : Type} {x : Except ε α} {y : Except ε β} {next : α → Except ε γ}
    {next' : β → Except ε δ} (h : SameFault x y)
    (hnext : ∀ a b, SameFault (next a) (next' b)) : SameFault (x >>= next) (y >>= next') := by
  cases x with
  | error e =>
      cases y with
      | error e' => exact congrArg Except.error (Except.error.inj h)
      | ok b => nomatch h
  | ok a =>
      cases y with
      | error e' => nomatch h
      | ok b => exact hnext a b

namespace Value

variable {T : Translation} {spelling : String → String}

lemma inspectLevels_translate (v : Value) :
    (v.translate T spelling).inspectLevels = v.inspectLevels := by
  unfold inspectLevels
  induction v using Value.induct with
  | list items ih => rw [translate_list, levelsWhile, levelsWhile, itemLevelsWhile_map ih]
  | closure params body env => rw [translate_closure]; rfl
  | nil | bool _ | int _ | str _ | sym _ | kw _ | builtin _ | foreign _ => rfl

lemma inspectRestOnto_sameFault {φ : Value → Value} {items : List Value}
    (h : ∀ v ∈ items, ∀ done done', SameFault (inspectOnto done v) (inspectOnto done' (φ v)))
    (done done' : String) :
    SameFault (inspectRestOnto done items) (inspectRestOnto done' (items.map φ)) := by
  induction items generalizing done done' with
  | nil => exact rfl
  | cons v rest ih =>
      rw [List.map_cons, inspectRestOnto, inspectRestOnto]
      exact (h v List.mem_cons_self _ _).bind
        fun _ _ => ih (fun w hw => h w (List.mem_cons_of_mem _ hw)) _ _

/-- The diagnostic form of a value can be written on both sides or on none. -/
lemma inspectOnto_sameFault (v : Value) : ∀ done done',
    SameFault (inspectOnto done v) (inspectOnto done' (v.translate T spelling)) := by
  induction v using Value.induct with
  | list items ih =>
      intro done done'
      match items with
      | [] =>
          rw [translate_list, List.map_nil, inspectOnto, inspectOnto]
          exact rfl
      | [v] =>
          rw [translate_list, List.map_singleton, inspectOnto, inspectOnto]
          exact (ih v List.mem_cons_self _ _).bind fun _ _ => rfl
      | v :: w :: rest =>
          have hrest := inspectRestOnto_sameFault fun u hu =>
            ih u (List.mem_cons_of_mem v hu)
          rw [translate_list, List.map_cons, List.map_cons, inspectOnto, inspectOnto]
          exact (ih v List.mem_cons_self _ _).bind fun _ _ => (hrest _ _).bind fun _ _ => rfl
  | closure params body env =>
      intro done done'
      rw [translate_closure, inspectOnto, inspectOnto]
      exact rfl
  | int n =>
      intro done done'
      change SameFault ((integerChars n).map _) ((integerChars n).map _)
      cases integerChars n <;> exact rfl
  | bool b => cases b <;> exact fun _ _ => rfl
  | nil | str _ | sym _ | kw _ | builtin _ | foreign _ => exact fun _ _ => rfl

end Value

/-! ### Faults and results that correspond -/

namespace Translation

/-- Faults that correspond: the same one, the same lookup, the refusal of a call under each limit,
or the same fault of a form that shows the same part. -/
inductive Matches (T : Translation) (limit limit' : Int) : Fault → Fault → Prop where
  | same {f : Fault} (h : f.withLimit limit' = f) : Matches T limit limit' f f
  | unbound (env : ℕ) (name : String) :
    Matches T limit limit' (.unbound name) (.unbound (T.spell env name))
  | refused : Matches T limit limit' (depthFault limit) (depthFault limit')
  | shown (room : Room) (env : ℕ) (part : Value) {fault : String → FormFault}
      (hkind : ∀ text text', (fault text').kind = (fault text).kind) :
    Matches T limit limit' (room.formFault part fault)
      (room.formFault (part.translate T (T.spell env)) fault)

/-- Results that correspond: the translated value, or faults that correspond. -/
inductive Results (T : Translation) (limit limit' : Int) :
    Except Fault Value → Except Fault Value → Prop where
  | ok (v : Value) : Results T limit limit' (.ok v) (.ok (v.translate T id))
  | error {f f' : Fault} (h : T.Matches limit limit' f f') :
    Results T limit limit' (.error f) (.error f')

variable {T : Translation} {limit limit' : Int}

/-- A result with a translated value corresponds to the result. -/
lemma Results.map {result : Except Fault Value}
    (h : ∀ f, result = .error f → f.withLimit limit' = f) :
    T.Results limit limit' result (result.map (Value.translate T id)) := by
  cases result with
  | ok v => exact .ok v
  | error f => exact .error (.same (h f rfl))

/-- A fault of one kind for every text is of that kind if the text can be written, and else of the
kind of the fault in writing it. -/
lemma kind_showing_eq {shown shown' : Except ShowFault String} (h : SameFault shown shown')
    (fault : String → Fault) (hkind : ∀ text text', (fault text').kind = (fault text).kind) :
    (Fault.showing shown' fault).kind = (Fault.showing shown fault).kind := by
  cases shown with
  | error f =>
      cases shown' with
      | error f' =>
          obtain rfl : f = f' := Except.error.inj h
          rfl
      | ok text' => cases h
  | ok text =>
      cases shown' with
      | error f' => cases h
      | ok text' => exact hkind text text'

/-- The fault of a form is of the same kind whatever it shows. -/
lemma kind_formFault_translate (room : Room) (part : Value) (spelling : String → String)
    {fault : String → FormFault} (hkind : ∀ text text', (fault text').kind = (fault text).kind) :
    (room.formFault (part.translate T spelling) fault).kind = (room.formFault part fault).kind := by
  have hsame : SameFault part.inspect (part.translate T spelling).inspect :=
    part.inspectOnto_sameFault "" ""
  have hshown := kind_showing_eq hsame (fun shown => .form (fault shown)) hkind
  rw [Room.formFault, Room.formFault, Value.inspectLevels_translate]
  cases room with
  | none => exact hshown
  | some left =>
      rw [Room.faultWithin, Room.faultWithin]
      split
      · exact hshown
      · rfl

/-- **Faults that correspond** under one limit are of one kind. -/
theorem Matches.kind_eq {f f' : Fault} (h : T.Matches limit limit f f') : f'.kind = f.kind := by
  cases h with
  | same | unbound | refused => rfl
  | shown room env part hkind => exact kind_formFault_translate room part _ hkind

/-- A translation that keeps the names only leaves the limit to tell faults apart. -/
lemma Matches.eq_or_refused (hspell : ∀ env, T.spell env = id) {f f' : Fault}
    (h : T.Matches limit limit' f f') :
    f' = f ∨ f = depthFault limit ∧ f' = depthFault limit' := by
  cases h with
  | same => exact .inl rfl
  | unbound env name => rw [hspell]; exact .inl rfl
  | refused => exact .inr ⟨rfl, rfl⟩
  | shown room env part =>
      rw [hspell, Value.translate_eq_renumber hspell, Room.formFault_renumber]
      exact .inl rfl

/-- Under limits that can be shown the fault is the one under the other limit. -/
lemma Matches.eq_withLimit (hspell : ∀ env, T.spell env = id)
    (hlimit : (Text.decimal? limit).isSome) (hlimit' : (Text.decimal? limit').isSome)
    {f f' : Fault} (h : T.Matches limit limit' f f') : f' = f.withLimit limit' := by
  cases h with
  | same h => exact h.symm
  | unbound env name => rw [hspell]; rfl
  | refused => rw [depthFault_eq hlimit, depthFault_eq hlimit']; rfl
  | shown room env part =>
      rw [hspell, Value.translate_eq_renumber hspell, Room.formFault_renumber,
        Fault.withLimit_formFault]

end Translation

/-! ### Forms without evaluated parts -/

section

variable {T : Translation} {limit limit' : Int} {room : Room} {env : ℕ}

/-- A parameter list fails on the first parameter that is no symbol. -/
lemma paramNames_of_not_sym {v : Value} (h : ∀ name, v ≠ .sym name) (rest : List Value) :
    paramNames room (v :: rest) = .error (room.formFault v .fnParam) := by
  cases v with
  | sym name => exact absurd rfl (h name)
  | _ => rfl

lemma paramNames_translate_ok {params : List Value} {names : List String}
    (spelling : String → String) (h : paramNames room params = .ok names) :
    paramNames room (params.map (Value.translate T spelling)) = .ok (names.map spelling) := by
  rw [eq_map_sym_of_paramNames h, List.map_map, ← paramNames_map_sym room (names.map spelling),
    List.map_map]
  simp only [Function.comp_def, Value.translate_sym]

lemma paramNames_translate_error (T : Translation) (env : ℕ) {params : List Value} {f : Fault}
    (h : paramNames room params = .error f) :
    ∃ f', paramNames room (params.map (Value.translate T (T.spell env))) = .error f' ∧
      T.Matches limit limit' f f' := by
  induction params with
  | nil => nomatch h
  | cons param rest ih =>
      by_cases hsym : ∃ name, param = .sym name
      · obtain ⟨name, rfl⟩ := hsym
        obtain ⟨f', hrest, hf⟩ := ih (eq_error_of_map h)
        refine ⟨f', ?_, hf⟩
        rw [List.map_cons, Value.translate_sym, paramNames, hrest]
        rfl
      · have hparam (name : String) (heq : param = .sym name) := hsym ⟨name, heq⟩
        rw [paramNames_of_not_sym hparam] at h
        obtain rfl := Except.error.inj h
        refine ⟨_, paramNames_of_not_sym (fun name heq => ?_) _, .shown room env param ?_⟩
        · exact hsym (Value.exists_sym_of_translate heq)
        · exact fun _ _ => rfl

/-- A function form fails on another number of parts than two, -/
lemma closureOf_of_length_ne {parts : List Value} (h : parts.length ≠ 2) :
    closureOf room env parts = .error (.form .fnArity) := by
  unfold closureOf
  split <;> simp_all

/-- and on parameters that are no list. -/
lemma closureOf_of_not_list {v : Value} (h : ∀ items, v ≠ .list items) (body : Value) :
    closureOf room env [v, body] = .error (room.formFault v .fnParams) := by
  cases v with
  | list items => exact absurd rfl (h items)
  | _ => rfl

/-- A function form makes a closure of the translated body, with the translated parameters. -/
lemma closureOf_translate (parts : List Value) :
    T.Results limit limit' (closureOf room env parts)
      (closureOf room (T.number env) (parts.map (Value.translate T (T.spell env)))) := by
  by_cases hlen : parts.length = 2
  · obtain ⟨first, body, rfl⟩ := List.length_eq_two.mp hlen
    rw [List.map_cons, List.map_singleton]
    by_cases hlist : ∃ params, first = .list params
    · obtain ⟨params, rfl⟩ := hlist
      rw [Value.translate_list, closureOf, closureOf]
      cases hnames : paramNames room params with
      | error f =>
          obtain ⟨f', hnames', hf⟩ := paramNames_translate_error T env hnames
          rw [hnames']
          exact .error hf
      | ok names =>
          rw [paramNames_translate_ok _ hnames]
          have hclosure : T.Results limit limit' (.ok (.closure names body env)) _ := .ok _
          rwa [Value.translate_closure] at hclosure
    · rw [closureOf_of_not_list (fun items heq => hlist ⟨items, heq⟩),
        closureOf_of_not_list fun items heq => hlist (Value.exists_list_of_translate heq)]
      exact .error (.shown room env first fun _ _ => rfl)
  · rw [closureOf_of_length_ne hlen, closureOf_of_length_ne (by rwa [List.length_map])]
    exact .error (.same rfl)

namespace SpecialForm

/-- A definition fails on another number of parts than two, -/
lemma immediate?_define_of_length_ne {parts : List Value} (h : parts.length ≠ 2) :
    define.immediate? room env parts = some (.error (.form .defineArity)) := by
  unfold immediate?
  split <;> simp_all

/-- and on a name that is no symbol. -/
lemma immediate?_define_of_not_sym {v : Value} (h : ∀ name, v ≠ .sym name) (e : Value) :
    define.immediate? room env [v, e] = some (.error (room.formFault v .defineName)) := by
  cases v with
  | sym name => exact absurd rfl (h name)
  | _ => rfl

/-- A scope fails on another number of parts than two, -/
lemma immediate?_letIn_of_length_ne {parts : List Value} (h : parts.length ≠ 2) :
    letIn.immediate? room env parts = some (.error (.form .letArity)) := by
  unfold immediate?
  split <;> simp_all

/-- on bindings that are no list, -/
lemma immediate?_letIn_of_not_list {v : Value} (h : ∀ items, v ≠ .list items) (body : Value) :
    letIn.immediate? room env [v, body] = some (.error (room.formFault v .letBindings)) := by
  cases v with
  | list items => exact absurd rfl (h items)
  | _ => rfl

/-- and on a binding without a value. -/
lemma immediate?_letIn_of_odd {bindings : List Value} (h : bindings.length % 2 ≠ 0) (body : Value) :
    letIn.immediate? room env [.list bindings, body] = some (.error (.form .letPairs)) :=
  if_neg h

/-- A conditional fails on another number of parts than two or three. -/
lemma immediate?_choose_of_length_ne {parts : List Value} (h : parts.length ≠ 2)
    (h' : parts.length ≠ 3) :
    choose.immediate? room env parts = some (.error (.form .ifArity)) := by
  unfold immediate?
  split <;> simp_all

/-- **What a form without evaluated parts comes to** corresponds on both sides. -/
theorem immediate?_translate {form : SpecialForm} {parts : List Value}
    {result : Except Fault Value} (h : form.immediate? room env parts = some result) :
    ∃ result', form.immediate? room (T.number env) (parts.map (Value.translate T (T.spell env))) =
        some result' ∧ T.Results limit limit' result result' := by
  have hmap {n : ℕ} (hlen : parts.length ≠ n) :
      (parts.map (Value.translate T (T.spell env))).length ≠ n := by rwa [List.length_map]
  -- a translation keeps the number of the parts, and which of them are names or lists
  cases form with
  | define =>
      by_cases hlen : parts.length = 2
      · obtain ⟨first, e, rfl⟩ := List.length_eq_two.mp hlen
        have hsym : ¬ ∃ name, first = .sym name := by
          rintro ⟨name, rfl⟩
          cases h
        rw [immediate?_define_of_not_sym fun name heq => hsym ⟨name, heq⟩] at h
        rw [← Option.some.inj h]
        exact ⟨_, immediate?_define_of_not_sym
          (fun name heq => hsym (Value.exists_sym_of_translate heq)) _,
          .error (.shown room env first fun _ _ => rfl)⟩
      · rw [immediate?_define_of_length_ne hlen] at h
        rw [← Option.some.inj h]
        exact ⟨_, immediate?_define_of_length_ne (hmap hlen), .error (.same rfl)⟩
  | letIn =>
      by_cases hlen : parts.length = 2
      · obtain ⟨first, body, rfl⟩ := List.length_eq_two.mp hlen
        rw [List.map_cons, List.map_singleton]
        by_cases hlist : ∃ items, first = .list items
        · obtain ⟨bindings, rfl⟩ := hlist
          have hodd : bindings.length % 2 ≠ 0 := by
            intro heven
            rw [immediate?, if_pos heven] at h
            cases h
          rw [immediate?_letIn_of_odd hodd] at h
          rw [← Option.some.inj h, Value.translate_list]
          exact ⟨_, immediate?_letIn_of_odd (by rwa [List.length_map]) _, .error (.same rfl)⟩
        · rw [immediate?_letIn_of_not_list fun items heq => hlist ⟨items, heq⟩] at h
          rw [← Option.some.inj h]
          exact ⟨_, immediate?_letIn_of_not_list
            (fun items heq => hlist (Value.exists_list_of_translate heq)) _,
            .error (.shown room env first fun _ _ => rfl)⟩
      · rw [immediate?_letIn_of_length_ne hlen] at h
        rw [← Option.some.inj h]
        exact ⟨_, immediate?_letIn_of_length_ne (hmap hlen), .error (.same rfl)⟩
  | sequence => cases h
  | choose =>
      by_cases hlen : parts.length = 2
      · obtain ⟨_, _, rfl⟩ := List.length_eq_two.mp hlen
        cases h
      · by_cases hlen' : parts.length = 3
        · obtain ⟨_, _, _, rfl⟩ := List.length_eq_three.mp hlen'
          cases h
        · rw [immediate?_choose_of_length_ne hlen hlen'] at h
          rw [← Option.some.inj h]
          exact ⟨_, immediate?_choose_of_length_ne (hmap hlen) (hmap hlen'), .error (.same rfl)⟩
  | function =>
      rw [← Option.some.inj h]
      exact ⟨_, rfl, closureOf_translate parts⟩

end SpecialForm

end

end TinyLisp
