/-
Evaluation can be repeated.

A request that defines nothing directly leaves every environment as it was, so a
later run of the same request starts on a store with more environments and the
same old ones. It is the same run with the new environments numbered higher: the
fault is the same, and the value differs in the numbers of the environments that
each run made, which nothing shows.

* `Request`: what a host asks for, an evaluation or an application.
* `Request.IsQuiet`, `Request.Within`: requests that define nothing directly, and
  requests about the environments of a store.
* `QuietRuns`: any number of quiet requests, one after the other.
* `Store.Shifted.of_keeps`: a store with more environments is a shifted copy.
* `evaluation_is_repeatable` (**repeatability**).
-/
import TinyLisp.Proofs.ShiftedStores

namespace TinyLisp

/-! ### Requests -/

/-- What a host can ask for. -/
inductive Request where
  /-- The value of an expression in an environment. -/
  | evaluate (env : ℕ) (e : Value)
  /-- The value of an application to evaluated arguments. -/
  | apply (f : Value) (args : List Value)

namespace Request

/-- Runs a request under a limit on call frames, in some room of the host. -/
def run (limit : Int) (room : Room) : Request → EvalM Value
  | evaluate env e => runIn limit room env e
  | apply f args => applyIn limit room f args

/-- The request as a job. -/
def job (room : Room) : Request → Job
  | evaluate env e => .expr room env e
  | apply f args => .apply room f args

/-- A request without a definition that is reached directly; in an application none is. -/
def IsQuiet : Request → Prop
  | evaluate _ e => e.directDefs = []
  | apply _ _ => True

/-- A request about the first `n` environments. -/
def Within (n : ℕ) : Request → Prop
  | evaluate env e => env < n ∧ e.CapturesBelow n
  | apply f args => f.CapturesBelow n ∧ ∀ v ∈ args, v.CapturesBelow n

variable {limit : Int} {room : Room} {q : Request} {m : Machine}

lemma evaluates_run (limit : Int) (room : Room) (q : Request) (m : Machine) :
    Evaluates limit (q.job room) m (q.run limit room m) := by
  cases q with
  | evaluate env e => exact evaluates_runIn limit room env e m
  | apply f args => exact evaluates_applyIn limit room f args m

/-- A quiet request leaves every environment as it was. -/
lemma IsQuiet.keeps (hq : q.IsQuiet) (limit : Int) (room : Room) (m : Machine) :
    m.store.Keeps (fun _ => ∅) (Outcome.machine (q.run limit room m)).store := by
  refine (evaluates_run limit room q m).keeps.mono fun k x hx => ?_
  cases q with
  | evaluate env e =>
      rw [IsQuiet] at hq
      simp [job, Job.mayDefine, hq] at hx
  | apply f args => exact hx

/-- A numbering that keeps the environments of a request keeps the request. -/
lemma Within.renumber_job {f : ℕ → ℕ} {n : ℕ} (hf : ∀ k < n, f k = k) (h : q.Within n) :
    (q.job room).renumber f = q.job room := by
  cases q with
  | evaluate env e => rw [job, Job.renumber, hf env h.1, Value.renumber_eq_self hf h.2]
  | apply g args =>
      rw [job, Job.renumber, Value.renumber_eq_self hf h.1,
        List.map_congr_left fun v hv => Value.renumber_eq_self hf (h.2 v hv), List.map_id']

end Request

/-- The machines after any number of quiet requests, each under a limit and in a room of its
own. -/
inductive QuietRuns (m : Machine) : Machine → Prop where
  | refl : QuietRuns m m
  | step {m'} (h : QuietRuns m m') (limit : Int) (room : Room) {q : Request} (hq : q.IsQuiet) :
    QuietRuns m (Outcome.machine (q.run limit room m'))

namespace QuietRuns

variable {m m' : Machine}

lemma keeps (h : QuietRuns m m') : m.store.Keeps (fun _ => ∅) m'.store := by
  induction h with
  | refl => exact .refl _ _
  | step _ limit room hq ih => exact ih.trans (hq.keeps limit room _) fun _ _ => subset_rfl

lemma depth_eq (h : QuietRuns m m') : m'.depth = m.depth := by
  induction h with
  | refl => rfl
  | step _ limit room _ ih => exact (Request.evaluates_run limit room _ _).depth_eq.trans ih

end QuietRuns

/-! ### Stores with more environments -/

/-- A store in which nothing has changed but that environments were added is a shifted copy. -/
lemma Store.Shifted.of_keeps {s s' : Store} (hs : s.WellFormed) (h : s.Keeps (fun _ => ∅) s') :
    Store.Shifted s.size (s'.size - s.size) [] s s' where
  le_size := le_rfl
  size_eq := (Nat.add_sub_cancel' h.size_le).symm
  outer?_eq k := by
    by_cases hk : k < s.size
    · rw [shiftFrom_of_lt hk, h.outer?_eq k hk]
      cases houter : s.outer? k with
      | none => rfl
      | some outer =>
          have hlt : outer < k := hs.outer_lt k outer houter
          rw [Option.map_some, shiftFrom_of_lt (hlt.trans hk)]
    · have hk' : s'.size ≤ k + (s'.size - s.size) := by omega
      rw [shiftFrom_of_le (Nat.not_lt.mp hk), outer?, outer?, frame?, frame?,
        Array.getElem?_eq_none hk', Array.getElem?_eq_none (Nat.not_lt.mp hk)]
      rfl
  visible_eq k := by
    rw [Bindings.visible_nil, Bindings.visible_nil]
    by_cases hk : k < s.size
    · rw [shiftFrom_of_lt hk, bindings_eq_of_frame?_eq (h.frame?_eq k hk rfl),
        Bindings.renumber_eq_self (fun j => shiftFrom_of_lt) (hs.captures k)]
    · have hk' : s'.size ≤ k + (s'.size - s.size) := by omega
      rw [shiftFrom_of_le (Nat.not_lt.mp hk), bindings_eq_nil hk',
        bindings_eq_nil (Nat.not_lt.mp hk)]
      rfl
  disjoint _ _ _ _ := List.disjoint_nil_right _

/-- The numbering of a shifted copy takes the environments from the place of the shift on to
those that were moved up. -/
lemma shiftFrom_bijOn (n d size : ℕ) :
    Set.BijOn (shiftFrom n d) (Set.Ico n size) (Set.Ico (n + d) (size + d)) := by
  refine ⟨fun k hk => ?_, (shiftFrom_strictMono n d).injective.injOn, fun k hk => ?_⟩
  · rw [shiftFrom_of_le hk.1]
    exact ⟨Nat.add_le_add_right hk.1 d, Nat.add_lt_add_right hk.2 d⟩
  · obtain ⟨hle, hlt⟩ := Set.mem_Ico.mp hk
    refine ⟨k - d, ⟨by omega, by omega⟩, ?_⟩
    rw [shiftFrom_of_le (by omega)]
    omega

/-! ### Reachable stores -/

/-- A readable form has no closures. -/
lemma Value.Readable.capturesBelow {e : Value} (h : e.Readable) (n : ℕ) : e.CapturesBelow n := by
  induction h with
  | @leaf e he h =>
      cases e with
      | list items => exact absurd rfl (he items)
      | closure params body env => exact h.elim
      | nil | bool _ | int _ | str _ | sym _ | kw _ | builtin _ | foreign _ =>
          simp [CapturesBelow]
  | list _ ih => exact capturesBelow_list.mpr ih

lemma Discipline.captures_forTexts : Discipline.captures.ForTexts where
  global := Nat.zero_lt_one
  form h := h.capturesBelow 1
  builtin _ := trivial

/-- The store of a session is well-formed. -/
lemma Session.Leads.wellFormed {guard : CallGuard} {room : Room} {s₀ s : Session}
    (hstart : Session.start guard room = .ok s₀) (hleads : s₀.Leads s) : s.store.WellFormed :=
  Store.wellFormed_iff_obeys.mpr (hleads.obeys Discipline.captures_forTexts
    (Session.start_obeys Discipline.captures_forTexts hstart)).store

/-! ### Repeatability -/

/-- **Evaluation can be repeated.** On every state that a session comes to, run a request about
its environments that defines nothing directly: an expression without such a definition, or any
application to evaluated arguments. Run it a second time, after any number of other such requests.
Then a numbering `f` keeps the environments that were there at first and takes those that the first
run made to those that the second run made, one to one; the second run comes to the same fault, or
to the value of the first renumbered by `f`; what each environment binds and where it leads is
renumbered by `f` as well; and the two values are printed alike. -/
theorem evaluation_is_repeatable {guard : CallGuard} {room₀ : Room} {s₀ s : Session}
    (hstart : Session.start guard room₀ = .ok s₀) (hleads : s₀.Leads s) {m : Machine}
    (hm : m.store = s.store) (limit : Int) (room : Room) {q : Request} (hq : q.IsQuiet)
    (hwithin : q.Within m.store.size) {m' : Machine}
    (hbetween : QuietRuns (Outcome.machine (q.run limit room m)) m') :
    let first : Outcome := q.run limit room m
    let second : Outcome := q.run limit room m'
    ∃ f : ℕ → ℕ, (∀ k < m.store.size, f k = k) ∧
      Set.BijOn f (Set.Ico m.store.size first.machine.store.size)
        (Set.Ico m'.store.size second.machine.store.size) ∧
      second.result = first.result.map (Value.renumber f) ∧
      (∀ k, second.machine.store.outer? (f k) = (first.machine.store.outer? k).map f ∧
        second.machine.store.bindings (f k) = (first.machine.store.bindings k).renumber f) ∧
      ∀ v w, first.result = .ok v → second.result = .ok w → w.print = v.print := by
  intro first second
  have hwell : m.store.WellFormed := hm ▸ Session.Leads.wellFormed hstart hleads
  have hkeeps : m.store.Keeps (fun _ => ∅) m'.store :=
    (hq.keeps limit room m).trans hbetween.keeps fun _ _ => subset_rfl
  have hfirst : Evaluates limit (q.job room) m first := q.evaluates_run limit room m
  -- the machine of the second run is a shifted copy of the machine of the first
  set n := m.store.size with hn
  set d := m'.store.size - n with hd
  have hmachines : (Mirror.shift n d []).Machines m m' :=
    ⟨.of_keeps hwell hkeeps, hbetween.depth_eq.trans hfirst.depth_eq⟩
  obtain ⟨r, hr, hout⟩ := hfirst.mirror (List.disjoint_nil_right _) hmachines
  have hsame : (q.job room).renumber (shiftFrom n d) = q.job room :=
    hwithin.renumber_job fun _ => shiftFrom_of_lt
  have hsecond : r = second := by
    have hr' : Evaluates limit (q.job room) m' r := hsame ▸ hr
    exact hr'.unique (q.evaluates_run limit room m')
  rw [hsecond] at hout
  have hshifted : Store.Shifted n d [] first.machine.store second.machine.store := hout.related
  have hresult : second.result = first.result.map (Value.renumber (shiftFrom n d)) :=
    hout.result_eq
  refine ⟨shiftFrom n d, fun _ => shiftFrom_of_lt, ?_, hresult, fun k => ⟨?_, ?_⟩, ?_⟩
  · rw [hshifted.size_eq, ← Nat.add_sub_cancel' hkeeps.size_le]
    exact shiftFrom_bijOn n d _
  · exact hshifted.outer?_eq k
  · have hvisible := hshifted.visible_eq k
    rwa [Bindings.visible_nil, Bindings.visible_nil] at hvisible
  · intro v w hv hw
    rw [hv, hw] at hresult
    rw [Except.ok.inj hresult, Value.print_renumber]

/-- A call that makes a function, repeated after another request: the second function captured an
environment of its own. -/
theorem constant_maker_is_repeatable :
    let constant : Value := .list [.sym "fn*", .list [], .sym "x"]
    let maker : Value := .list [.sym "fn*", .list [.sym "x"], constant]
    let e : Value := .list [maker, .int 1]
    let m : Machine := ⟨Session.initialStore, 0, []⟩
    let first : Outcome := runIn 500 none 0 e m
    let between : Outcome := runIn 500 none 0 (.list []) first.machine
    let second : Outcome := runIn 500 none 0 e between.machine
    first.result = .ok (.closure [] (.sym "x") 1) ∧
      ∃ env, between.machine.store.size ≤ env ∧
        second.result = .ok (.closure [] (.sym "x") env) := by
  intro constant maker e m first between second
  have hfirst : first.result = .ok (.closure [] (.sym "x") 1) := rfl
  have hmade : 1 ∈ Set.Ico m.store.size first.machine.store.size := by decide
  have hwithin : e.CapturesBelow m.store.size := by
    simp [e, maker, constant, Value.CapturesBelow, Value.CapturesBelowAll]
  obtain ⟨f, -, hf, hresult, -, -⟩ := evaluation_is_repeatable
    (rfl : Session.start (CallGuard.ofSetting none) none = .ok ⟨Session.initialStore, _, none⟩)
    .refl (rfl : m.store = Session.initialStore) 500 none (q := .evaluate 0 e) rfl
    ⟨by decide, hwithin⟩ (QuietRuns.refl.step 500 none (q := .evaluate 0 (.list [])) rfl)
  refine ⟨hfirst, f 1, (hf.mapsTo hmade).1, hresult.trans ?_⟩
  change Except.map _ first.result = _
  rw [hfirst, Except.map, Value.renumber_closure, Value.renumber_sym]

end TinyLisp
