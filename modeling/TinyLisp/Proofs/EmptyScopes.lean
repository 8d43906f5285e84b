/-
An empty scope changes nothing.

A scope without bindings, and a call of a function without parameters, evaluate the
body in a new environment in which nothing is bound. When the body defines nothing
directly, nothing ever is: a definition writes into the environment of its own scope or
call only. So the run is that of the body itself, with one more environment that a
lookup passes through, and it stays so in every later call.

* `collapse`: the numbering without one of the environments.
* `Store.ExtraEmpty`: a store with one more environment, in which nothing is bound.
* `Store.ExtraEmpty.get?_eq`: a lookup passes through it.
* `Simulation.emptyScope`: leaving the environment out as a simulation.
* `Outcome.AlikeButFor`: outcomes that differ in the environment only.
* `Evaluates.inScope`, `Evaluates.inCall`: an empty scope and an empty call evaluate
  their body in a new environment.
* `empty_scope_is_transparent` (**empty scopes**).
-/
import TinyLisp.Proofs.Lookups
import TinyLisp.Proofs.Repetition
import TinyLisp.Proofs.Simulation

namespace TinyLisp

/-! ### The numbering -/

/-- The numbering without the environment `n`, whose place is taken by the one around it. -/
def collapse (n env k : ℕ) : ℕ :=
  if k < n then k else if k = n then env else k - 1

section

variable {n env k : ℕ}

lemma collapse_of_lt (h : k < n) : collapse n env k = k := if_pos h

@[simp] lemma collapse_self (n env : ℕ) : collapse n env n = env := by simp [collapse]

lemma collapse_of_gt (h : n < k) : collapse n env k = k - 1 := by
  rw [collapse, if_neg h.not_gt, if_neg h.ne']

/-- The others have numbers of their own. -/
lemma collapse_inj {j : ℕ} (hj : j ≠ n) (hk : k ≠ n) :
    collapse n env j = collapse n env k ↔ j = k := by
  unfold collapse
  split <;> split <;> omega

end

/-! ### One more environment -/

/-- A store with an environment `n` inside `env` that the other store has not, in which nothing is
bound, and what is bound elsewhere agrees up to the numbering. -/
structure Store.ExtraEmpty (n env : ℕ) (s s' : Store) : Prop where
  env_lt : env < n
  lt_size : n < s.size
  size_eq : s.size = s'.size + 1
  outer?_self : s.outer? n = some env
  bindings_self : s.bindings n = []
  /-- Only later environments are inside it. -/
  lt_of_outer? : ∀ k, s.outer? k = some n → n < k
  outer?_eq : ∀ k ≠ n, s'.outer? (collapse n env k) = (s.outer? k).map (collapse n env)
  bindings_eq : ∀ k ≠ n,
    s'.bindings (collapse n env k) = (s.bindings k).renumber (collapse n env)

namespace Store.ExtraEmpty

variable {n env : ℕ} {s s' : Store}

lemma collapse_size (h : ExtraEmpty n env s s') : s'.size = collapse n env s.size := by
  rw [collapse_of_gt h.lt_size, h.size_eq, Nat.add_sub_cancel]

lemma lt_size_iff (h : ExtraEmpty n env s s') {k : ℕ} (hk : k ≠ n) :
    collapse n env k < s'.size ↔ k < s.size := by
  have hsize := h.size_eq
  have hn := h.lt_size
  unfold collapse
  split
  · omega
  · omega

/-- A link leads to an earlier environment on both sides or on none. -/
lemma collapse_lt_iff (h : ExtraEmpty n env s s') {k outer : ℕ} (hk : k ≠ n)
    (houter : s.outer? k = some outer) :
    collapse n env outer < collapse n env k ↔ outer < k := by
  have henv := h.env_lt
  by_cases hn : outer = n
  · have hlt := h.lt_of_outer? k (hn ▸ houter)
    rw [hn, collapse_self, collapse_of_gt hlt]
    omega
  · unfold collapse
    split <;> split <;> omega

/-- **A lookup passes through** the environment in which nothing is bound. -/
theorem get?_eq (h : ExtraEmpty n env s s') (k : ℕ) (name : String) :
    s'.get? (collapse n env k) name =
      (s.get? k name).map (Value.renumber (collapse n env)) := by
  induction k using Nat.strongRecOn with
  | _ k ih =>
      by_cases hn : k = n
      · have hnext := ih env (hn ▸ h.env_lt)
        rw [collapse_of_lt h.env_lt] at hnext
        rw [hn, collapse_self, hnext, get?_step h.lt_size, h.bindings_self, h.outer?_self]
        simp [Option.filter, h.env_lt, Bindings.get?]
      by_cases hk : k < s.size
      · rw [get?_step hk, get?_step ((h.lt_size_iff hn).mpr hk), h.bindings_eq k hn,
          Bindings.get?_renumber, h.outer?_eq k hn]
        cases houter : s.outer? k with
        | none => simp
        | some outer =>
            have hlink := h.collapse_lt_iff hn houter
            by_cases hlt : outer < k
            · simp [Option.filter, hlink.mpr hlt, hlt, ih outer hlt, Option.map_or]
            · simp [Option.filter, mt hlink.mp hlt, hlt]
      · have hk' : s'.size ≤ collapse n env k := Nat.not_lt.mp (mt (h.lt_size_iff hn).mp hk)
        rw [get?_eq_none_of_size_le hk', get?_eq_none_of_size_le (Nat.not_lt.mp hk)]
        rfl

lemma create (h : ExtraEmpty n env s s') (outer : ℕ) :
    ExtraEmpty n env (s.create (some outer)).2 (s'.create (some (collapse n env outer))).2 where
  env_lt := h.env_lt
  lt_size := by rw [size_create]; exact h.lt_size.trans (Nat.lt_succ_self _)
  size_eq := by rw [size_create, size_create, h.size_eq]
  outer?_self := by rw [outer?_create, if_neg h.lt_size.ne, h.outer?_self]
  bindings_self := by rw [bindings_create, h.bindings_self]
  lt_of_outer? k hk := by
    rw [outer?_create] at hk
    split at hk
    · next hsize => exact hsize ▸ h.lt_size
    · exact h.lt_of_outer? k hk
  outer?_eq k hk := by
    simp only [outer?_create, h.collapse_size, collapse_inj hk h.lt_size.ne']
    split
    · rfl
    · exact h.outer?_eq k hk
  bindings_eq k hk := by rw [bindings_create, bindings_create, h.bindings_eq k hk]

/-- Something is bound in another environment. -/
lemma set (h : ExtraEmpty n env s s') {k : ℕ} (hk : k ≠ n) (name : String) (v : Value) :
    ExtraEmpty n env (s.set k name v)
      (s'.set (collapse n env k) name (v.renumber (collapse n env))) where
  env_lt := h.env_lt
  lt_size := by rw [size_set]; exact h.lt_size
  size_eq := by rw [size_set, size_set, h.size_eq]
  outer?_self := by rw [outer?_set, h.outer?_self]
  bindings_self := by rw [bindings_set h.lt_size, if_neg hk, h.bindings_self]
  lt_of_outer? j hj := h.lt_of_outer? j (by rwa [outer?_set] at hj)
  outer?_eq j hj := by rw [outer?_set, outer?_set, h.outer?_eq j hj]
  bindings_eq j hj := by
    by_cases hsize : j < s.size
    · simp only [bindings_set hsize, bindings_set ((h.lt_size_iff hj).mpr hsize),
        collapse_inj hk hj]
      split
      · rw [h.bindings_eq j hj, Bindings.renumber_set]
      · exact h.bindings_eq j hj
    · have hsize' := mt (h.lt_size_iff hj).mp hsize
      rw [bindings_eq_nil (by simpa using hsize'), bindings_eq_nil (by simpa using hsize)]
      rfl

/-- A new environment of a well-formed store is one more. -/
lemma of_create (hs : s.WellFormed) (henv : env < s.size) :
    ExtraEmpty s.size env (s.create (some env)).2 s where
  env_lt := henv
  lt_size := by simp
  size_eq := size_create _ _
  outer?_self := by rw [outer?_create, if_pos rfl]
  bindings_self := by rw [bindings_create, bindings_eq_nil le_rfl]
  lt_of_outer? k hk := by
    rw [outer?_create] at hk
    split at hk
    · exact absurd (Option.some.inj hk) henv.ne
    · exact hs.outer_lt k _ hk
  outer?_eq k hk := by
    rw [outer?_create, if_neg hk]
    rcases Nat.lt_or_gt_of_ne hk with hlt | hgt
    · rw [collapse_of_lt hlt]
      cases houter : s.outer? k with
      | none => rfl
      | some outer =>
          rw [Option.map_some, collapse_of_lt ((hs.outer_lt k outer houter).trans hlt)]
    · rw [collapse_of_gt hgt, outer?, outer?, frame?, frame?,
        Array.getElem?_eq_none (Nat.le_sub_one_of_lt hgt), Array.getElem?_eq_none hgt.le]
      rfl
  bindings_eq k hk := by
    rw [bindings_create]
    rcases Nat.lt_or_gt_of_ne hk with hlt | hgt
    · rw [collapse_of_lt hlt,
        Bindings.renumber_eq_self (fun _ => collapse_of_lt) (hs.captures k)]
    · rw [collapse_of_gt hgt, bindings_eq_nil (Nat.le_sub_one_of_lt hgt), bindings_eq_nil hgt.le]
      rfl

end Store.ExtraEmpty

/-! ### Runs without the environment -/

/-- Leaving the environment out is a simulation, as long as nothing is bound in it. -/
def Simulation.emptyScope (n env : ℕ) : Simulation :=
  .ofNumbering (collapse n env) (.ofSymbols (fun _ => ∅) (· = n)) (Store.ExtraEmpty n env)
    (fun h _ => ⟨rfl, h.lt_size.ne'⟩) (fun h => h.collapse_size)
    (fun h _ k name _ => h.get?_eq k name)
    (fun _ _ _ _ v _ _ => v.avoids_of_forall_eq_empty fun _ => rfl) (fun h => h.create)
    (fun h _ hk name v _ => h.set hk name v)

/-- Outcomes that differ in one more environment only, in which nothing is bound: the values agree
up to the numbering, and so do the stores; the faults are the same, or each is that of one call more
than its limit. -/
structure Outcome.AlikeButFor (n env : ℕ) (limit limit' : Int) (r r' : Outcome) : Prop where
  stores : Store.ExtraEmpty n env r.machine.store r'.machine.store
  result_eq : r'.result = r.result.map (Value.renumber (collapse n env)) ∨
    r.result = .error (depthFault limit) ∧ r'.result = .error (depthFault limit')
  print_eq : ∀ v v', r.result = .ok v → r'.result = .ok v' → v'.print = v.print

lemma Simulation.Outcomes.alikeButFor {n env : ℕ} {limit limit' : Int} {r r' : Outcome}
    (h : (Simulation.emptyScope n env).Outcomes limit limit' r r') :
    r.AlikeButFor n env limit limit' r' := by
  have hresult := h.result_cases fun _ => rfl
  refine ⟨h.machines.related, hresult, fun v v' hv hv' => ?_⟩
  rcases hresult with heq | ⟨hf, -⟩
  · rw [hv, hv'] at heq
    rw [Except.ok.inj heq, Value.print_renumber]
  · nomatch hv.symm.trans hf

/-! ### Empty scopes and empty calls -/

/-- The scope without bindings around an expression. -/
def Value.inScope (body : Value) : Value :=
  .list [.sym "let*", .list [], body]

/-- The call of a function without parameters with an expression as its body. -/
def Value.inCall (body : Value) : Value :=
  .list [.list [.sym "fn*", .list [], body]]

section

variable {limit limit' : Int} {room room' : Room} {env : ℕ} {body : Value} {m m' : Machine}
  {r : Outcome}

/-- A scope without bindings evaluates its body in a new environment. -/
lemma Evaluates.inScope
    (h : Evaluates limit (.expr room m.store.size body) (m.pushScope env) r) :
    Evaluates limit (.expr (room.more 2) env body.inScope) m r := by
  refine .special (room.fits_more (by decide)) rfl ?_ ?_
  · rw [room.less_more 1 1]
    exact room.fits_more le_rfl
  · rw [room.less_more 1 1, room.less_more 1 0, Room.more_zero]
    exact .letIn rfl (.scopeBody (by decide) h)

/-- A call without arguments evaluates the body in a new environment and in a new call frame. -/
lemma Evaluates.inCall (hdepth : (m.depth : Int) < limit)
    (h : Evaluates limit (.expr room m.store.size body) (m.pushScope env).enter r) :
    ∃ r', Evaluates limit (.expr (room.more 3) env body.inCall) m r' ∧
      r'.result = r.result ∧ r'.machine.store = r.machine.store := by
  have hinner : ((room.more 3).less 1).fits 1 = true := by
    rw [room.less_more 1 2]
    exact room.fits_more (by decide)
  have hfunction : Evaluates limit (.expr ((room.more 3).less 1) env
      (.list [.sym "fn*", .list [], body])) m (.ok (.closure [] body env) m) := by
    have hclosure (room : Room) : Evaluates limit (.form room env .function [.list [], body]) m
        (.ofResult (.ok (.closure [] body env)) m) := .immediate rfl
    refine .special hinner rfl ?_ (hclosure _)
    rw [room.less_more 1 2, room.less_more 1 1]
    exact room.fits_more le_rfl
  have hbody : Evaluates limit (.expr (((room.more 3).less 1).less 2) m.store.size body)
      (m.pushArguments env [] []).enter r := by
    rw [room.less_more 1 2, room.less_more 2 0, Room.more_zero]
    exact h
  have hroom : ((room.more 3).less 1).fits 2 = true := by
    rw [room.less_more 1 2]
    exact room.fits_more le_rfl
  have happlication {r'}
      (happly : Evaluates limit (.apply ((room.more 3).less 1) (.closure [] body env) []) m r') :
      Evaluates limit (.expr (room.more 3) env body.inCall) m r' :=
    .application (room.fits_more (by decide)) rfl hfunction hinner .nil happly
  cases r with
  | ok v m₁ => exact ⟨_, happlication (.call rfl hdepth hroom hbody), rfl, rfl⟩
  | error f m₁ => exact ⟨_, happlication (.bodyFault rfl hdepth hroom hbody), rfl, rfl⟩

/-- A body that defines nothing directly comes to the same in an environment and in a new one inside
it. -/
lemma Evaluates.alikeButFor (hs : m.store.WellFormed) (henv : env < m.store.size)
    (hbody : body.CapturesBelow m.store.size) (hdefs : body.directDefs = [])
    (hstore : m'.store = (m.pushScope env).store)
    (hbudget : budgetAt limit m.depth = budgetAt limit' m'.depth)
    (h : Evaluates limit' (.expr room m.store.size body) m' r)
    (hroom : room'.Covers room r.result) :
    r.AlikeButFor m.store.size env limit' limit (runIn limit room' env body m) := by
  have hmachines : (Simulation.emptyScope m.store.size env).Machines limit' limit m' m :=
    ⟨hstore ▸ .of_create hs henv, hbudget⟩
  have hallows :
      (Simulation.emptyScope m.store.size env).Allows (.expr room m.store.size body) :=
    ⟨body.avoids_of_forall_eq_empty fun _ => rfl, fun _ => hdefs⟩
  obtain ⟨r', hr', hout⟩ := h.simulate trivial hallows hroom hmachines
  have hsame : body.translate (Simulation.emptyScope m.store.size env).toTranslation id = body := by
    rw [body.translate_eq_renumber fun _ => rfl]
    exact Value.renumber_eq_self (fun _ => collapse_of_lt) hbody
  have hjob : Evaluates limit (.expr room' (collapse m.store.size env m.store.size)
    (body.translate (Simulation.emptyScope m.store.size env).toTranslation id)) m r' := hr'
  rw [collapse_self, hsame] at hjob
  rw [evaluates_expr_iff.mp hjob]
  exact hout.alikeButFor

/-- Applications that agree up to the numbering, on stores that differ in the environment. -/
lemma applyIn_alikeButFor {n : ℕ} (hstores : Store.ExtraEmpty n env m.store m'.store)
    (hbudget : budgetAt limit' m'.depth = budgetAt limit m.depth) (f : Value) (args : List Value)
    (hroom : room'.Covers room (Outcome.result (applyIn limit room f args m))) :
    Outcome.AlikeButFor n env limit limit' (applyIn limit room f args m)
      (applyIn limit' room' (f.renumber (collapse n env))
        (args.map (Value.renumber (collapse n env))) m') := by
  have hmachines : (Simulation.emptyScope n env).Machines limit limit' m m' := ⟨hstores, hbudget⟩
  have hvalue (v : Value) :
      v.translate (Simulation.emptyScope n env).toTranslation id = v.renumber (collapse n env) :=
    v.translate_eq_renumber fun _ => rfl
  have hallows : (Simulation.emptyScope n env).Allows (.apply room f args) :=
    ⟨f.avoids_of_forall_eq_empty fun _ => rfl, fun v _ => v.avoids_of_forall_eq_empty fun _ => rfl⟩
  obtain ⟨r', hr', hout⟩ :=
    (evaluates_applyIn limit room f args m).simulate trivial hallows hroom hmachines
  rw [Job.translate, hvalue, funext hvalue] at hr'
  rw [evaluates_apply_iff.mp hr']
  exact hout.alikeButFor

end

/-- **Empty scopes change nothing.** In every state of a session, take an expression that defines
nothing directly. A scope without bindings around it, and under a limit of one call more the call
of a function with it as the body, come to the same as the expression itself, in a host with room
for the frames of the scope or call itself; or in the same room, unless the run in the scope or the
call lacked it. That is the same fault, but for the limit that it shows, or the same value and the
same environments but for one more environment, in which nothing is bound; the values are printed
alike, and the environments that were there before stay as they were. Applications of values that
agree so to arguments that agree so, on such environments, come to outcomes that agree so again. -/
theorem empty_scope_is_transparent {guard : CallGuard} {room₀ : Room} {s₀ s : Session}
    (hstart : Session.start guard room₀ = .ok s₀) (hleads : s₀.Leads s) {m : Machine}
    (hm : m.store = s.store) {env : ℕ} (henv : env < m.store.size) {body : Value}
    (hbody : body.CapturesBelow m.store.size) (hdefs : body.directDefs = []) (limit : Int) :
    let n := m.store.size
    (∀ room room' : Room,
      let enclosed : Outcome := runIn limit (room.more 2) env body.inScope m
      let bare : Outcome := runIn limit room' env body m
      room'.Covers room enclosed.result →
        enclosed.AlikeButFor n env limit limit bare ∧
        ∀ k < n, enclosed.machine.store.frame? k = m.store.frame? k ∧
          bare.machine.store.frame? k = m.store.frame? k) ∧
    (m.depth ≤ limit → ∀ room room' : Room,
      let called : Outcome := runIn (limit + 1) (room.more 3) env body.inCall m
      let bare : Outcome := runIn limit room' env body m
      room'.Covers room called.result →
        called.AlikeButFor n env (limit + 1) limit bare ∧
        ∀ k < n, called.machine.store.frame? k = m.store.frame? k ∧
          bare.machine.store.frame? k = m.store.frame? k) ∧
    ∀ (limit₁ limit₂ : Int) (room₁ room₂ : Room) (m₁ m₂ : Machine) (f : Value) (args : List Value),
      Store.ExtraEmpty n env m₁.store m₂.store →
      budgetAt limit₂ m₂.depth = budgetAt limit₁ m₁.depth →
      let applied : Outcome := applyIn limit₁ room₁ f args m₁
      room₂.Covers room₁ applied.result →
        applied.AlikeButFor n env limit₁ limit₂
          (applyIn limit₂ room₂ (f.renumber (collapse n env))
            (args.map (Value.renumber (collapse n env))) m₂) := by
  intro n
  have hwell : m.store.WellFormed := hm ▸ Session.Leads.wellFormed hstart hleads
  -- neither the body nor what stands around it writes into an environment that was there before
  have hframes (limit : Int) (room : Room) {e : Value} (he : e.directDefs = []) (k : ℕ)
      (hk : k < n) : (Outcome.machine (runIn limit room env e m)).store.frame? k =
        m.store.frame? k := by
    refine (evaluates_runIn limit room env e m).keeps.frame?_eq k hk ?_
    rw [Job.mayDefine, he]
    exact Set.eq_empty_of_forall_notMem fun x hx => List.not_mem_nil hx.2
  refine ⟨?_, ?_, ?_⟩
  · -- the scope: its body runs in the room that the two frames of the form leave
    intro room room' enclosed bare hroom
    have hinner := evaluates_runIn limit room n body (m.pushScope env)
    have henclosed := hinner.inScope.unique (evaluates_runIn limit (room.more 2) env body.inScope m)
    rw [henclosed] at hinner
    exact ⟨hinner.alikeButFor hwell henv hbody hdefs rfl rfl hroom,
      fun k hk => ⟨hframes limit _ rfl k hk, hframes limit _ hdefs k hk⟩⟩
  · -- the call: one more frame under a limit that is one higher leaves the same budget
    intro hdepth room room' called bare hroom
    have hinner := evaluates_runIn (limit + 1) room n body (m.pushScope env).enter
    obtain ⟨r, hcalled, hresult, hstore⟩ := hinner.inCall (Int.lt_add_one_of_le hdepth)
    have hbudget : budgetAt limit m.depth = budgetAt (limit + 1) (m.pushScope env).enter.depth := by
      simp only [budgetAt, Machine.enter, Machine.pushScope]
      omega
    obtain rfl := hcalled.unique (evaluates_runIn (limit + 1) (room.more 3) env body.inCall m)
    rw [hresult] at hroom
    have hstore' : (m.pushScope env).enter.store = (m.pushScope env).store := rfl
    have halike := hinner.alikeButFor hwell henv hbody hdefs hstore' hbudget hroom
    refine ⟨⟨hstore ▸ halike.stores, hresult ▸ halike.result_eq, hresult ▸ halike.print_eq⟩,
      fun k hk => ⟨hframes _ _ rfl k hk, hframes limit _ hdefs k hk⟩⟩
  · intro limit₁ limit₂ room₁ room₂ m₁ m₂ f args hstores hbudget applied hroom
    exact applyIn_alikeButFor hstores hbudget f args hroom

/-- A function that is made in an empty scope, or in an empty call, captures one more environment;
it is called alike. -/
theorem constant_from_empty_scope :
    let body : Value := .list [.sym "fn*", .list [], .int 1]
    let m : Machine := ⟨Session.initialStore, 0, []⟩
    let enclosed : Outcome := runIn 500 none 0 body.inScope m
    let called : Outcome := runIn 501 none 0 body.inCall m
    let bare : Outcome := runIn 500 none 0 body m
    enclosed.result = .ok (.closure [] (.int 1) 1) ∧ bare.result = .ok (.closure [] (.int 1) 0) ∧
      enclosed.AlikeButFor 1 0 500 500 bare ∧ called.AlikeButFor 1 0 501 500 bare ∧
      Outcome.AlikeButFor 1 0 500 500
        (applyIn 500 none (.closure [] (.int 1) 1) [] enclosed.machine)
        (applyIn 500 none (.closure [] (.int 1) 0) [] bare.machine) := by
  intro body m enclosed called bare
  have hbody : body.CapturesBelow m.store.size := by
    simp [body, Value.CapturesBelow, Value.CapturesBelowAll]
  obtain ⟨hscope, hcall, happly⟩ := empty_scope_is_transparent
    (rfl : Session.start (CallGuard.ofSetting none) none = .ok ⟨Session.initialStore, _, none⟩)
    .refl (rfl : m.store = Session.initialStore) (show 0 < m.store.size by decide) hbody rfl 500
  obtain ⟨hscope, -⟩ := hscope none none (.inl rfl)
  obtain ⟨hcall, -⟩ := hcall (by decide) none none (.inl rfl)
  have hagain := happly 500 500 none none enclosed.machine bare.machine (.closure [] (.int 1) 1) []
    hscope.stores rfl (.inl rfl)
  rw [Value.renumber_closure, Value.renumber_int, List.map_nil] at hagain
  exact ⟨rfl, rfl, hscope, hcall, hagain⟩

end TinyLisp
