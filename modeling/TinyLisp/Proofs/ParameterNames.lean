/-
Parameters can be renamed.

A parameter means what it is bound to in the environment of the call, and so it does in
every environment inside that one. So two names, the parameter and one that occurs
nowhere in the function, can be exchanged in all of these environments: in what they
bind, in the code that is evaluated in them, and in the functions that capture them.
Everywhere else the names stay what they are. Which environments are inside that of the
call depends on their links only, which never change, so it can be read off the store
in the end.

* `Value.replaceSymbol`: an expression with one symbol in the place of another one.
* `Store.ExchangedBy`: the bindings of a store on the other side of a translation.
* `Translation.exchange`, `Store.Exchanged`: two names exchanged inside an environment.
* `Store.Exchanged.get?_eq`: what the names mean then.
* `Simulation.exchange`: the exchange as a simulation.
* `Outcome.ShownAlike`: outcomes that look the same.
* `Evaluates.renameBody`, `Evaluates.renameCall`: the body and the call of a function
  with a parameter renamed.
* `parameters_can_be_renamed` (**renamed parameters**).
-/
import TinyLisp.Proofs.Lookups
import TinyLisp.Proofs.Repetition
import TinyLisp.Proofs.Simulation

namespace TinyLisp

/-! ### Replacing a symbol -/

namespace Value

mutual

/-- An expression with the symbol `y` in the place of every symbol `x`. -/
def replaceSymbol (x y : String) : Value → Value
  | sym name => sym (if name = x then y else name)
  | list items => list (replaceSymbolInEach x y items)
  | v => v

/-- Some expressions with the symbol replaced in each. -/
def replaceSymbolInEach (x y : String) : List Value → List Value
  | [] => []
  | v :: rest => replaceSymbol x y v :: replaceSymbolInEach x y rest

end

variable {x y : String}

lemma replaceSymbolInEach_eq_map (items : List Value) :
    replaceSymbolInEach x y items = items.map (replaceSymbol x y) := by
  induction items with
  | nil => rfl
  | cons v rest ih => rw [replaceSymbolInEach, ih, List.map_cons]

lemma replaceSymbol_list (items : List Value) :
    (list items).replaceSymbol x y = list (items.map (replaceSymbol x y)) := by
  rw [replaceSymbol, replaceSymbolInEach_eq_map]

/-- Exchanging with a name that does not occur is replacing by it. -/
lemma exchange_eq_replace {name : String} (hname : name ≠ y) :
    Equiv.swap x y name = if name = x then y else name := by
  rw [Equiv.swap_apply_def, if_neg hname]

variable {T : Translation} {body : Value} (hbody : body.Readable)
  (hfresh : body.AllLeaves (· ≠ sym y))
include hbody hfresh

lemma translate_eq_replaceSymbol :
    body.translate T (Equiv.swap x y) = body.replaceSymbol x y := by
  induction hbody with
  | @leaf v hv hleaf =>
      cases v with
      | list items => exact absurd rfl (hv items)
      | closure params body env => exact hleaf.elim
      | sym name =>
          have hname : name ≠ y := fun heq => hfresh.of_leaf nofun (congrArg sym heq)
          rw [translate_sym, replaceSymbol, exchange_eq_replace hname]
      | nil | bool _ | int _ | str _ | kw _ | builtin _ | foreign _ => rfl
  | @list items _ ih =>
      rw [translate_list, replaceSymbol_list,
        List.map_congr_left fun v hv => ih v hv (allLeaves_list.mp hfresh v hv)]

/-- A form without a symbol avoids its name. -/
lemma Readable.avoids (hidden : ℕ → Set String) : body.Avoids hidden {y} := by
  induction hbody with
  | @leaf v hv hleaf =>
      cases v with
      | list items => exact absurd rfl (hv items)
      | closure params body env => exact hleaf.elim
      | sym name => exact fun heq => hfresh.of_leaf nofun (congrArg sym heq)
      | nil | bool _ | int _ | str _ | kw _ | builtin _ | foreign _ => trivial
  | @list items _ ih =>
      exact avoids_list.mpr fun v hv => ih v hv (allLeaves_list.mp hfresh v hv)

end Value

/-! ### Stores with other names -/

/-- A store whose links are those of another one, and whose bindings are translated. -/
structure Store.ExchangedBy (T : Translation) (s s' : Store) : Prop where
  size_eq : s'.size = s.size
  outer?_eq : ∀ k, s'.outer? k = s.outer? k
  bindings_eq : ∀ k,
    s'.bindings k = (s.bindings k).map (Prod.map (T.spell k) (Value.translate T id))

namespace Store.ExchangedBy

variable {T : Translation} {s s' : Store}

lemma create (h : ExchangedBy T s s') (outer : Option ℕ) :
    ExchangedBy T (s.create outer).2 (s'.create outer).2 where
  size_eq := by rw [size_create, size_create, h.size_eq]
  outer?_eq k := by rw [outer?_create, outer?_create, h.size_eq, h.outer?_eq]
  bindings_eq k := by rw [bindings_create, bindings_create, h.bindings_eq]

/-- Something is bound under names that are different on both sides. -/
lemma set (h : ExchangedBy T s s') {env : ℕ} (hspell : Function.Injective (T.spell env))
    (name : String) (v : Value) :
    ExchangedBy T (s.set env name v) (s'.set env (T.spell env name) (v.translate T id)) where
  size_eq := by rw [size_set, size_set, h.size_eq]
  outer?_eq k := by rw [outer?_set, outer?_set, h.outer?_eq]
  bindings_eq k := by
    by_cases hk : k < s.size
    · rw [bindings_set hk, bindings_set (h.size_eq ▸ hk)]
      split
      · next henv => rw [h.bindings_eq, ← henv, Bindings.set_map hspell]
      · exact h.bindings_eq k
    · have hle : s.size ≤ k := Nat.not_lt.mp hk
      rw [bindings_eq_nil (by rwa [size_set, h.size_eq]), bindings_eq_nil (by rwa [size_set])]
      rfl

lemma setAll (h : ExchangedBy T s s') {env : ℕ} (hspell : Function.Injective (T.spell env))
    (entries : List (String × Value)) :
    ExchangedBy T (s.setAll env entries)
      (s'.setAll env (entries.map (Prod.map (T.spell env) (Value.translate T id)))) := by
  induction entries generalizing s s' with
  | nil => exact h
  | cons entry rest ih => exact ih (h.set hspell entry.1 entry.2)

end Store.ExchangedBy

/-! ### Names exchanged inside an environment -/

namespace Store

variable {s : Store} {c k : ℕ}

/-- An environment is inside another one when the one around it is. -/
lemma WellFormed.mem_chain_iff (hs : s.WellFormed) (hk : k < s.size) (hne : c ≠ k) {outer : ℕ}
    (houter : s.outer? k = some outer) : c ∈ s.chain k ↔ c ∈ s.chain outer := by
  rw [hs.chain_eq hk, houter, Option.elim_some, List.mem_cons]
  exact or_iff_right hne

end Store

/-- The names `x` and `y` are exchanged in the environment `c` and in the environments inside it, by
the links of a store. -/
def Translation.exchange (final : Store) (c : ℕ) (x y : String) : Translation where
  number := id
  spell k := if c ∈ final.chain k then Equiv.swap x y else id

/-- The name `y` is hidden in the environment `c` and in the environments inside it. -/
def hiddenInside (final : Store) (c : ℕ) (y : String) (k : ℕ) : Set String :=
  if c ∈ final.chain k then {y} else ∅

section

variable {final : Store} {c : ℕ} {x y : String}

lemma Translation.exchange_spell_injective (k : ℕ) :
    Function.Injective ((exchange final c x y).spell k) := by
  simp only [exchange]
  split
  · exact (Equiv.swap x y).injective
  · exact Function.injective_id

/-- Outside of the environment a value is what it was. -/
lemma Value.translate_exchange_eq_self {v : Value} (h : v.CapturesBelow c) :
    v.translate (.exchange final c x y) id = v := by
  have hspell {k : ℕ} (hk : k < c) : (Translation.exchange final c x y).spell k = id :=
    if_neg fun hmem => (Store.le_of_mem_chain hmem).not_gt hk
  induction v using Value.induct with
  | list items ih =>
      rw [translate_list, List.map_congr_left fun v hv => ih v hv (capturesBelow_list.mp h v hv),
        List.map_id']
  | closure params body env ih =>
      rw [CapturesBelow] at h
      rw [translate_closure, hspell h.1, ih h.2, List.map_id]
      rfl
  | nil | bool _ | int _ | str _ | sym _ | kw _ | builtin _ | foreign _ => rfl

lemma Value.avoids_of_capturesBelow {v : Value} (h : v.CapturesBelow c) :
    v.Avoids (hiddenInside final c y) ∅ := by
  have hhidden {k : ℕ} (hk : k < c) : hiddenInside final c y k = ∅ :=
    if_neg fun hmem => (Store.le_of_mem_chain hmem).not_gt hk
  induction v using Value.induct with
  | list items ih => exact avoids_list.mpr fun v hv => ih v hv (capturesBelow_list.mp h v hv)
  | closure params body env ih =>
      rw [CapturesBelow] at h
      rw [Avoids, hhidden h.1]
      exact ih h.2
  | sym name => exact Set.notMem_empty name
  | nil | bool _ | int _ | str _ | kw _ | builtin _ | foreign _ => trivial

end

/-- A store in which the names `x` and `y` are exchanged inside the environment `c`, which binds
`x`, while `y` is not looked up there. -/
structure Store.Exchanged (final : Store) (c : ℕ) (x y : String) (s s' : Store) : Prop
    extends Store.ExchangedBy (.exchange final c x y) s s' where
  lt_size : c < s.size
  bound : x ∈ (s.bindings c).names
  avoids : s.BindsOnly (Value.Avoids (hiddenInside final c y) ∅)

namespace Store.Exchanged

variable {final s s' : Store} {c : ℕ} {x y : String}

/-- How a name is spelled in an environment it is spelled around it, unless the environment is the
outermost of those where names are exchanged and binds the name itself. -/
lemma spell_outer (hfinal : final.WellFormed) (h : Exchanged final c x y s s')
    (hforeseen : s.Keeps (fun _ => Set.univ) final) {k outer : ℕ} (hk : k < s.size)
    (houter : s.outer? k = some outer) {name : String} (hname : name ∉ hiddenInside final c y k)
    (hown : (s.bindings k).get? name = none) :
    (Translation.exchange final c x y).spell k name =
        (Translation.exchange final c x y).spell outer name ∧
      name ∉ hiddenInside final c y outer := by
  have hk' : k < final.size := hk.trans_le hforeseen.size_le
  have houter' : final.outer? k = some outer := (hforeseen.outer?_eq k hk).trans houter
  by_cases hc : c = k
  · -- the call itself: it binds `x`, so a name that is not found there is neither of the two
    subst hc
    have hself : c ∈ final.chain c := mem_chain_self hk'
    have hout : c ∉ final.chain outer := fun hmem =>
      (le_of_mem_chain hmem).not_gt (hfinal.outer_lt c outer houter')
    have hy : name ≠ y := by
      rw [hiddenInside, if_pos hself] at hname
      exact hname
    have hx : name ≠ x := by
      rintro rfl
      have hsome := (Bindings.get?_isSome_iff _ _).mpr h.bound
      rw [hown] at hsome
      nomatch hsome
    simp only [Translation.exchange, hiddenInside, if_pos hself, if_neg hout]
    exact ⟨Equiv.swap_apply_of_ne_of_ne hx hy, Set.notMem_empty name⟩
  · have hsame := hfinal.mem_chain_iff hk' hc houter'
    simp only [Translation.exchange, hiddenInside, hsame] at hname ⊢
    exact ⟨trivial, hname⟩

/-- **What a name means** when two names are exchanged inside an environment. -/
theorem get?_eq (hfinal : final.WellFormed) (h : Exchanged final c x y s s')
    (hforeseen : s.Keeps (fun _ => Set.univ) final) {k : ℕ} {name : String}
    (hname : name ∉ hiddenInside final c y k) :
    s'.get? k ((Translation.exchange final c x y).spell k name) =
      (s.get? k name).map (Value.translate (.exchange final c x y) id) := by
  induction k using Nat.strongRecOn with
  | _ k ih =>
      by_cases hk : k < s.size
      · rw [get?_step hk, get?_step (h.size_eq ▸ hk), h.bindings_eq,
          Bindings.get?_map (Translation.exchange_spell_injective k), h.outer?_eq]
        cases hown : (s.bindings k).get? name with
        | some v => simp
        | none =>
            cases houter : s.outer? k with
            | none => simp
            | some outer =>
                by_cases hlt : outer < k
                · obtain ⟨hspell, hname'⟩ := h.spell_outer hfinal hforeseen hk houter hname hown
                  simp [Option.filter, hlt, hspell, ih outer hlt hname']
                · simp [Option.filter, hlt]
      · have hle : s.size ≤ k := Nat.not_lt.mp hk
        rw [get?_eq_none_of_size_le hle, get?_eq_none_of_size_le (h.size_eq ▸ hle)]
        rfl

lemma create (h : Exchanged final c x y s s') (env : ℕ) :
    Exchanged final c x y (s.create (some env)).2 (s'.create (some env)).2 where
  toExchangedBy := h.toExchangedBy.create _
  lt_size := by rw [size_create]; exact h.lt_size.trans (Nat.lt_succ_self _)
  bound := by rw [bindings_create]; exact h.bound
  avoids := h.avoids.create _

lemma set (h : Exchanged final c x y s s') (env : ℕ) (name : String) {v : Value}
    (hv : v.Avoids (hiddenInside final c y) ∅) :
    Exchanged final c x y (s.set env name v)
      (s'.set env ((Translation.exchange final c x y).spell env name)
        (v.translate (.exchange final c x y) id)) where
  toExchangedBy := h.toExchangedBy.set (Translation.exchange_spell_injective env) name v
  lt_size := by rw [size_set]; exact h.lt_size
  bound := (Keeps.set_any s env name v).names_subset c h.lt_size h.bound
  avoids := h.avoids.set env name hv

end Store.Exchanged

/-- Exchanging two names inside an environment is a simulation, when neither is that of a special
form. -/
def Simulation.exchange {final : Store} (hfinal : final.WellFormed) (c : ℕ) {x y : String}
    (hx : SpecialForm.ofName? x = none) (hy : SpecialForm.ofName? y = none) : Simulation where
  toTranslation := .exchange final c x y
  toPolicy := .ofSymbols (hiddenInside final c y) fun _ => False
  Foreseen s := s.Keeps (fun _ => Set.univ) final
  Related := Store.Exchanged final c x y
  ofName?_spell env name := by
    simp only [Translation.exchange]
    split
    · rw [Equiv.swap_apply_def]
      split
      · next hname => rw [hname, hx, hy]
      · split
        · next hname => rw [hname, hx, hy]
        · rfl
    · rfl
  foreseen_of_keeps hkeeps h :=
    (hkeeps.mono fun _ => Set.subset_univ _).trans h fun _ _ => subset_rfl
  inherit {s s'} h outer hforeseen := by
    have hsize : s.size < (s.create (some outer)).2.size := by simp
    have hlink : final.outer? s.size = some outer := by
      rw [hforeseen.outer?_eq _ hsize, Store.outer?_create, if_pos rfl]
    have hsame := hfinal.mem_chain_iff (hsize.trans_le hforeseen.size_le) h.lt_size.ne hlink
    have hhidden : hiddenInside final c y s.size = hiddenInside final c y outer := by
      simp only [hiddenInside, hsame]
    refine ⟨?_, hhidden, not_false⟩
    simp only [Translation.exchange, hsame]
  size_eq h := h.size_eq
  get?_eq h hforeseen _ _ _ hname := h.get?_eq hfinal hforeseen hname.1
  passes_of_get? h _ _ _ _ _ hv := h.avoids.get? hv
  create h env := h.create env
  set h env _ name _ hv := h.set env name hv

/-! ### Calls with other parameters -/

/-- Outcomes that look the same: values with the same printed form, or faults of one kind. -/
inductive Outcome.ShownAlike : Outcome → Outcome → Prop where
  | ok {v v' m m'} (h : v'.print = v.print) : ShownAlike (.ok v m) (.ok v' m')
  | error {f f' m m'} (h : f'.kind = f.kind) : ShownAlike (.error f m) (.error f' m')

lemma Outcome.ShownAlike.refl (r : Outcome) : r.ShownAlike r := by
  cases r with
  | ok v m => exact .ok rfl
  | error f m => exact .error rfl

lemma Simulation.Outcomes.shownAlike {S : Simulation} {limit : Int} {r r' : Outcome}
    (h : S.Outcomes limit limit r r') : r.ShownAlike r' := by
  cases h with
  | ok => exact .ok ((Value.keepsData_translate _).print _)
  | error hf => exact .error hf.kind_eq

section

variable {limit : Int} {room : Room} {x y : String} {params : List String} {body : Value}
  {args : List Value} {env : ℕ} {m : Machine} {r : Outcome}

/-- In the environment of a call that binds `x` and where `y` does not occur the two names can be
exchanged. -/
lemma Store.Exchanged.of_createWith {s final : Store} (hs : s.WellFormed)
    (hkeeps : (s.createWith env (params.zip args)).2.Keeps (fun _ => Set.univ) final)
    (hargs : ∀ v ∈ args, v.CapturesBelow s.size) (hlen : params.length = args.length)
    (hx : x ∈ params) :
    Exchanged final s.size x y (s.createWith env (params.zip args)).2
      (s.createWith env ((params.map (Equiv.swap x y)).zip args)).2 := by
  have hsize : s.size < final.size := by
    have hle := hkeeps.size_le
    rw [size_createWith] at hle
    exact hle
  have hbase : ExchangedBy (.exchange final s.size x y) (s.create (some env)).2
      (s.create (some env)).2 := by
    refine ⟨rfl, fun _ => rfl, fun k => ?_⟩
    rw [bindings_create]
    by_cases hk : k < s.size
    · have hspell : (Translation.exchange final s.size x y).spell k = id :=
        if_neg fun hmem => (le_of_mem_chain hmem).not_gt hk
      rw [hspell]
      refine ((List.map_congr_left fun entry hentry => ?_).trans (List.map_id' _)).symm
      exact Prod.ext rfl (Value.translate_exchange_eq_self (hs.captures k entry hentry))
    · rw [bindings_eq_nil (Nat.not_lt.mp hk)]
      rfl
  have hnames : (params.map (Equiv.swap x y)).zip args =
      (params.zip args).map (Prod.map ((Translation.exchange final s.size x y).spell s.size)
        (Value.translate (.exchange final s.size x y) id)) := by
    have hspell : (Translation.exchange final s.size x y).spell s.size = Equiv.swap x y :=
      if_pos (mem_chain_self hsize)
    have hvalues : args.map (Value.translate (.exchange final s.size x y) id) = args :=
      (List.map_congr_left fun v hv => Value.translate_exchange_eq_self (hargs v hv)).trans
        (List.map_id' _)
    conv_lhs => rw [← hvalues, List.zip_map]
    rw [hspell]
  rw [hnames]
  have hnone : s.BindsOnly (Value.Avoids (hiddenInside final s.size y) ∅) :=
    fun k entry hentry => Value.avoids_of_capturesBelow (hs.captures k entry hentry)
  exact ⟨hbase.setAll (Translation.exchange_spell_injective _) _,
    by rw [size_createWith]; exact Nat.lt_succ_self _, mem_names_createWith s env hlen hx,
    hnone.createWith env params fun v hv => Value.avoids_of_capturesBelow (hargs v hv)⟩

/-- The body of a call with a parameter renamed. -/
lemma Evaluates.renameBody (hx : SpecialForm.ofName? x = none) (hy : SpecialForm.ofName? y = none)
    (hmem : x ∈ params) (hbody : body.Readable) (hfresh : body.AllLeaves (· ≠ .sym y))
    (hs : m.store.WellFormed) (henv : env < m.store.size)
    (hargs : ∀ v ∈ args, v.CapturesBelow m.store.size) (hlen : params.length = args.length)
    (h : Evaluates limit (.expr room m.store.size body) (m.pushArguments env params args).enter r) :
    ∃ r', Evaluates limit (.expr room m.store.size (body.replaceSymbol x y))
        (m.pushArguments env (params.map (Equiv.swap x y)) args).enter r' ∧ r.ShownAlike r' := by
  set c := m.store.size with hc
  set m₀ : Machine := (m.pushArguments env params args).enter with hm₀
  have hobeys : m₀.store.Obeys .captures :=
    (Store.wellFormed_iff_obeys.mp hs).createWith henv hargs
  have hsize : m₀.store.size = c + 1 := Store.size_createWith _ _ _
  have hlt : c < m₀.store.size := hsize ▸ Nat.lt_succ_self c
  have hjob : (Job.expr room c body).Obeys .captures m₀.store.size :=
    ⟨hlt, hbody.capturesBelow _⟩
  have hfinal : r.machine.store.WellFormed :=
    Store.wellFormed_iff_obeys.mpr (h.obeys hobeys hjob).store
  have hkeeps : m₀.store.Keeps (fun _ => Set.univ) r.machine.store :=
    h.keeps.mono fun _ => Set.subset_univ _
  have hinside : c ∈ r.machine.store.chain c :=
    Store.mem_chain_self (hlt.trans_le hkeeps.size_le)
  have hmachines : (Simulation.exchange hfinal c hx hy).Machines limit limit m₀
      (m.pushArguments env (params.map (Equiv.swap x y)) args).enter :=
    ⟨.of_createWith hs hkeeps hargs hlen hmem, rfl⟩
  have hallows : (Simulation.exchange hfinal c hx hy).Allows (.expr room c body) := by
    have hhidden : hiddenInside r.machine.store c y c = {y} := if_pos hinside
    refine ⟨?_, False.elim⟩
    rw [hhidden]
    exact hbody.avoids hfresh _
  obtain ⟨r', hr', hout⟩ := h.simulate (Store.Keeps.refl _ _) hallows (.refl room _) hmachines
  have hspell : (Simulation.exchange hfinal c hx hy).spell c = Equiv.swap x y := if_pos hinside
  rw [Job.translate, hspell, Value.translate_eq_replaceSymbol hbody hfresh] at hr'
  exact ⟨r', hr', hout.shownAlike⟩

/-- A call with a parameter renamed. -/
lemma Evaluates.renameCall (hx : SpecialForm.ofName? x = none) (hy : SpecialForm.ofName? y = none)
    (hmem : x ∈ params) (hbody : body.Readable) (hfresh : body.AllLeaves (· ≠ .sym y))
    (hs : m.store.WellFormed) (henv : env < m.store.size)
    (hargs : ∀ v ∈ args, v.CapturesBelow m.store.size)
    (h : Evaluates limit (.apply room (.closure params body env) args) m r) :
    ∃ r', Evaluates limit (.apply room
        (.closure (params.map (Equiv.swap x y)) (body.replaceSymbol x y) env) args) m r' ∧
      r.ShownAlike r' := by
  have hlen' : (params.map (Equiv.swap x y)).length = params.length := List.length_map _
  cases h with
  | arity hlen =>
      refine ⟨_, .arity (hlen'.symm ▸ hlen), ?_⟩
      rw [hlen']
      exact .error rfl
  | refused hlen hdepth => exact ⟨_, .refused (hlen'.trans hlen) hdepth, .error rfl⟩
  | bodyTooDeep hlen hdepth hroom =>
      exact ⟨_, .bodyTooDeep (hlen'.trans hlen) hdepth hroom, .error rfl⟩
  | bodyFault hlen hdepth hroom hrun =>
      obtain ⟨_, hrun', ⟨⟩ | hkind⟩ :=
        hrun.renameBody hx hy hmem hbody hfresh hs henv hargs hlen
      exact ⟨_, .bodyFault (hlen'.trans hlen) hdepth hroom hrun', .error hkind⟩
  | call hlen hdepth hroom hrun =>
      obtain ⟨_, hrun', hprint | _⟩ :=
        hrun.renameBody hx hy hmem hbody hfresh hs henv hargs hlen
      exact ⟨_, .call (hlen'.trans hlen) hdepth hroom hrun', .ok hprint⟩
  | notCallable hf => nomatch hf

/-- The call of a function form on some arguments. -/
def Value.callOf (params body : Value) (args : List Value) : Value :=
  .list (.list [.sym "fn*", params, body] :: args)

/-- A call of a function form ends before the function is applied, and then it does not depend on
the function; or its closure is applied to the values of the arguments. -/
lemma evaluates_callOf_cases (limit : Int) (room : Room) (env : ℕ) (args : List Value)
    (m : Machine) :
    (∃ r, ∀ params body, Evaluates limit
      (.expr room env (Value.callOf (.list (List.map .sym params)) body args)) m r) ∨
    ∃ room' vs m₁, Evaluates limit (.each room' env args) m (.ok (.list vs) m₁) ∧
      ∀ params body r, Evaluates limit (.apply (room.less 1) (.closure params body env) vs) m₁ r →
        Evaluates limit (.expr room env (Value.callOf (.list (List.map .sym params)) body args))
          m r := by
  by_cases hroom : room.fits 1 = true
  swap
  · exact .inl ⟨_, fun _ _ => .tooDeep (Bool.not_eq_true _ ▸ hroom)⟩
  by_cases hhead : (room.less 1).fits 1 = true
  swap
  · exact .inl ⟨_, fun _ _ => .headFault hroom rfl (.tooDeep (Bool.not_eq_true _ ▸ hhead))⟩
  by_cases hinner : ((room.less 1).less 1).fits 1 = true
  swap
  · exact .inl ⟨_, fun _ _ =>
      .headFault hroom rfl (.formTooDeep hhead rfl (Bool.not_eq_true _ ▸ hinner))⟩
  have hfunction (params : List String) (body : Value) : Evaluates limit
      (.expr (room.less 1) env (.list [.sym "fn*", .list (params.map .sym), body])) m
      (.ofResult (.ok (.closure params body env)) m) := by
    refine .special hhead rfl hinner (.immediate ?_)
    rw [SpecialForm.immediate?, closureOf, paramNames_map_sym]
    rfl
  obtain ⟨r, hargs⟩ := exists_evaluates limit (.each ((room.less 1).less 1) env args) m
  cases r with
  | error f m₁ =>
      exact .inl ⟨_, fun params body =>
        .argumentsFault hroom rfl (hfunction params body) hhead hargs⟩
  | ok v m₁ =>
      obtain ⟨vs, rfl⟩ := hargs.exists_list
      exact .inr ⟨_, vs, m₁, hargs, fun params body r happly =>
        .application hroom rfl (hfunction params body) hhead hargs happly⟩

end

/-- **Parameters can be renamed.** In every environment of every state of a session, call a function
of some parameters, with a body and arguments that are read from a text. Replace one of the
parameters, in the parameter list and in the body, by a name that occurs in neither; both names are
none of special forms. The call comes to a fault of the same kind, or to a value with the same
printed form, and every environment that was there before is the same after both calls. -/
theorem parameters_can_be_renamed {guard : CallGuard} {room₀ : Room} {s₀ s : Session}
    (hstart : Session.start guard room₀ = .ok s₀) (hleads : s₀.Leads s) {m : Machine}
    (hm : m.store = s.store) {env : ℕ} (henv : env < m.store.size) {x y : String}
    (hx : SpecialForm.ofName? x = none) (hy : SpecialForm.ofName? y = none)
    {params : List String} (hmem : x ∈ params) (hparams : y ∉ params) {body : Value}
    (hbody : body.Readable) (hfresh : body.AllLeaves (· ≠ .sym y)) {args : List Value}
    (hargs : ∀ e ∈ args, e.Readable) (limit : Int) (room : Room) :
    let ps : Value := .list (params.map .sym)
    let r : Outcome := runIn limit room env (Value.callOf ps body args) m
    let r' : Outcome := runIn limit room env
      (Value.callOf (ps.replaceSymbol x y) (body.replaceSymbol x y) args) m
    r.ShownAlike r' ∧ ∀ k < m.store.size, r'.machine.store.frame? k = r.machine.store.frame? k := by
  intro ps r r'
  have hwell : m.store.WellFormed := hm ▸ Session.Leads.wellFormed hstart hleads
  have hps : ps.replaceSymbol x y = .list ((params.map (Equiv.swap x y)).map .sym) := by
    rw [Value.replaceSymbol_list, List.map_map, List.map_map]
    refine congrArg Value.list (List.map_congr_left fun name hname => congrArg Value.sym ?_)
    have hname : name ≠ y := fun heq => hparams (heq ▸ hname)
    exact (Value.exchange_eq_replace hname).symm
  have hr : Evaluates limit (.expr room env (Value.callOf ps body args)) m r :=
    evaluates_runIn limit room env _ m
  have hr' : Evaluates limit (.expr room env (Value.callOf (.list ((params.map (Equiv.swap x y)).map
      .sym)) (body.replaceSymbol x y) args)) m r' := hps ▸ evaluates_runIn limit room env _ m
  rcases evaluates_callOf_cases limit room env args m with
    ⟨r₀, hall⟩ | ⟨room₁, vs, m₁, heach, hcall⟩
  · -- the function was not applied
    rw [hr.unique (hall _ _), hr'.unique (hall _ _)]
    exact ⟨.refl r₀, fun _ _ => rfl⟩
  · have hjob : Job.Obeys .captures m.store.size (.each room₁ env args) :=
      ⟨henv, fun e he => (hargs e he).capturesBelow _⟩
    have hafter := heach.obeys (Store.wellFormed_iff_obeys.mp hwell) hjob
    have hvs : ∀ v ∈ vs, v.CapturesBelow m₁.store.size :=
      Value.capturesBelow_list.mp hafter.value_ok
    have hsize : m.store.size ≤ m₁.store.size := heach.size_le
    obtain ⟨r₁, happly⟩ :=
      exists_evaluates limit (.apply (room.less 1) (.closure params body env) vs) m₁
    have hwell₁ : m₁.store.WellFormed := Store.wellFormed_iff_obeys.mpr hafter.store
    obtain ⟨r₁', happly', halike⟩ := happly.renameCall hx hy hmem hbody hfresh hwell₁
      (henv.trans_le hsize) hvs
    rw [hr.unique (hcall _ _ _ happly), hr'.unique (hcall _ _ _ happly')]
    -- an application changes no environment that was there before it
    refine ⟨halike, fun k hk => ?_⟩
    rw [happly'.keeps.frame?_eq k (hk.trans_le hsize) rfl,
      happly.keeps.frame?_eq k (hk.trans_le hsize) rfl]

/-- A function that gives its argument back, made by a call under two names of the parameter. -/
theorem constant_parameter_can_be_renamed :
    let m : Machine := ⟨Session.initialStore, 0, []⟩
    let body (name : String) : Value := .list [.sym "fn*", .list [], .sym name]
    let call (name : String) : Value := Value.callOf (.list [.sym name]) (body name) [.int 1]
    let r : Outcome := runIn 500 none 0 (call "a") m
    let r' : Outcome := runIn 500 none 0 (call "b") m
    r.result = .ok (.closure [] (.sym "a") 1) ∧ r'.result = .ok (.closure [] (.sym "b") 1) ∧
      r.ShownAlike r' ∧ r'.machine.store.frame? 0 = r.machine.store.frame? 0 := by
  intro m body call r r'
  have htokens : Token.ofSource "(fn* () a) 1" =
      [⟨.openParen, "("⟩, ⟨.atom, "fn*"⟩, ⟨.openParen, "("⟩, ⟨.closeParen, ")"⟩, ⟨.atom, "a"⟩,
        ⟨.closeParen, ")"⟩, ⟨.atom, "1"⟩] := by
    cbv
  have hread : readAll "(fn* () a) 1" = .ok [body "a", .int 1] :=
    readAll_of_tokens htokens rfl (List.cons_ne_nil _ _)
  obtain ⟨hbody, hargs⟩ := List.forall_mem_cons.mp (readAll_readable hread)
  have hfresh : (body "a").AllLeaves (· ≠ .sym "b") := by
    have hleaf {v : Value} (hv : ∀ items, v ≠ .list items) (hne : v ≠ .sym "b") :
        v.AllLeaves (· ≠ .sym "b") := .leaf hv hne
    simp [body, Value.allLeaves_list, hleaf]
  obtain ⟨halike, hframes⟩ := parameters_can_be_renamed
    (rfl : Session.start (CallGuard.ofSetting none) none = .ok ⟨Session.initialStore, _, none⟩)
    .refl (rfl : m.store = Session.initialStore) (show 0 < m.store.size by decide)
    (rfl : SpecialForm.ofName? "a" = none) (rfl : SpecialForm.ofName? "b" = none)
    (show "a" ∈ ["a"] by decide) (by decide) hbody hfresh hargs 500 none
  exact ⟨rfl, rfl, halike, hframes 0 (by decide)⟩

end TinyLisp
