/-
Evaluation always ends.

The rules have no budget and no bound on chains of environments, so an outcome
by the rules is a finite run. Every job has exactly one outcome, no chain of
nested jobs goes on for ever, and in a store whose links lead to earlier
environments every way outwards ends at an environment without an outer one.

* `Value.induct`: induction on values, through lists and the bodies of closures.
* `Value.CapturesBelow`, `Store.WellFormed`: links and captured environments that
  lead to environments of the store.
* `Discipline.captures`: well-formedness as a discipline, so that every run keeps it.
* `Store.IsWay`: the whole way outwards from an environment.
* `Store.WellFormed.isWay_chain`: the chain of an environment is its whole way.
* `evaluation_terminates` (**termination**).
-/
import TinyLisp.Proofs.Discipline

namespace TinyLisp

/-! ### Captured environments -/

namespace Value

/-- Induction on values, through the items of lists and the bodies of closures. -/
@[elab_as_elim]
theorem induct {P : Value → Prop} (nil : P nil) (bool : ∀ b, P (bool b)) (int : ∀ n, P (int n))
    (str : ∀ text, P (str text)) (sym : ∀ name, P (sym name)) (kw : ∀ name, P (kw name))
    (list : ∀ items, (∀ v ∈ items, P v) → P (list items)) (builtin : ∀ p, P (builtin p))
    (closure : ∀ params body env, P body → P (closure params body env))
    (foreign : ∀ f, P (foreign f)) (v : Value) : P v := by
  match v with
  | .nil => exact nil
  | .bool b => exact bool b
  | .int n => exact int n
  | .str text => exact str text
  | .sym name => exact sym name
  | .kw name => exact kw name
  | .list items =>
      exact list items fun v _ =>
        induct nil bool int str sym kw list builtin closure foreign v
  | .builtin p => exact builtin p
  | .closure params body env =>
      exact closure params body env
        (induct nil bool int str sym kw list builtin closure foreign body)
  | .foreign f => exact foreign f

mutual

/-- Every closure in a value, and in the bodies of its closures, captured one of the first `n`
environments. -/
def CapturesBelow (n : ℕ) : Value → Prop
  | list items => CapturesBelowAll n items
  | closure _ body env => env < n ∧ CapturesBelow n body
  | _ => True

/-- The same for each of some values. -/
def CapturesBelowAll (n : ℕ) : List Value → Prop
  | [] => True
  | v :: rest => CapturesBelow n v ∧ CapturesBelowAll n rest

end

lemma capturesBelowAll_iff {n : ℕ} {items : List Value} :
    CapturesBelowAll n items ↔ ∀ v ∈ items, CapturesBelow n v := by
  induction items with
  | nil => simp [CapturesBelowAll]
  | cons v rest ih => rw [CapturesBelowAll, ih, List.forall_mem_cons]

lemma capturesBelow_list {n : ℕ} {items : List Value} :
    CapturesBelow n (list items) ↔ ∀ v ∈ items, CapturesBelow n v := by
  rw [CapturesBelow, capturesBelowAll_iff]

lemma CapturesBelow.mono {n n' : ℕ} (hle : n ≤ n') {v : Value} (h : CapturesBelow n v) :
    CapturesBelow n' v := by
  induction v using Value.induct with
  | list items ih =>
      rw [capturesBelow_list] at h ⊢
      exact fun v hv => ih v hv (h v hv)
  | closure params body env ih =>
      rw [CapturesBelow] at h ⊢
      exact ⟨h.1.trans_le hle, ih h.2⟩
  | nil | bool _ | int _ | str _ | sym _ | kw _ | builtin _ | foreign _ => trivial

end Value

/-- Links lead to earlier environments, and every closure captured an environment of the store. -/
structure Store.WellFormed (s : Store) : Prop where
  outer_lt : ∀ k outer, s.outer? k = some outer → outer < k
  captures : ∀ k, ∀ entry ∈ s.bindings k, entry.2.CapturesBelow s.size

/-- Well-formedness as a discipline. -/
def Discipline.captures : Discipline where
  env n k := k < n
  source n e := e.CapturesBelow n
  value n v := v.CapturesBelow n
  env_mono hle h := h.trans_le hle
  source_mono hle h := h.mono hle
  value_mono hle h := h.mono hle
  env_new n := Nat.lt_succ_self n
  value_nil _ := by simp [Value.CapturesBelow]
  value_bool _ _ := by simp [Value.CapturesBelow]
  value_int _ _ := by simp [Value.CapturesBelow]
  value_list := Value.capturesBelow_list
  value_closure := by simp [Value.CapturesBelow]
  value_constant _ h := h
  source_item he h := Value.capturesBelow_list.mp h _ he

lemma Store.wellFormed_iff_obeys {s : Store} : s.WellFormed ↔ s.Obeys .captures :=
  ⟨fun h => ⟨h.outer_lt, h.captures⟩, fun h => ⟨h.link, h.value⟩⟩

/-! ### The way outwards -/

namespace Store

/-- The whole way outwards: each environment is followed by its outer one, and the last has
none. -/
def IsWay (s : Store) : List ℕ → Prop
  | [] => False
  | [k] => s.outer? k = none
  | k :: k' :: rest => s.outer? k = some k' ∧ IsWay s (k' :: rest)

variable {s : Store}

lemma WellFormed.chain_eq (h : s.WellFormed) {env : ℕ} (henv : env < s.size) :
    s.chain env = env :: (s.outer? env).elim [] s.chain :=
  chain_eq_of_links henv (h.outer_lt env)

/-- **The chain of an environment** is the whole way outwards from it. -/
theorem WellFormed.isWay_chain (h : s.WellFormed) {env : ℕ} (henv : env < s.size) :
    (s.chain env).head? = some env ∧ s.IsWay (s.chain env) := by
  induction env using Nat.strongRecOn with
  | _ env ih =>
      rw [h.chain_eq henv]
      refine ⟨rfl, ?_⟩
      cases houter : s.outer? env with
      | none => exact houter
      | some outer =>
          have hlt : outer < env := h.outer_lt env outer houter
          obtain ⟨hhead, hway⟩ := ih outer hlt (hlt.trans henv)
          obtain ⟨rest, hrest⟩ := List.head?_eq_some_iff.mp hhead
          rw [Option.elim_some, hrest]
          exact ⟨houter, hrest ▸ hway⟩

end Store

/-! ### Termination -/

/-- Nested jobs along a whole chain keep every discipline. -/
lemma obeys_of_reflTransGen {d : Discipline} {limit : Int} {c c' : Job × Machine}
    (h : Relation.ReflTransGen (Invokes limit) c c') (hs : c.2.store.Obeys d)
    (hjob : c.1.Obeys d c.2.store.size) :
    c'.2.store.Obeys d ∧ c'.1.Obeys d c'.2.store.size := by
  induction h with
  | refl => exact ⟨hs, hjob⟩
  | tail _ hstep ih => exact hstep.obeys ih.1 ih.2

/-- Nested jobs along a whole chain descend. -/
lemma measure_lt_of_transGen {limit : Int} {c c' : Job × Machine}
    (h : Relation.TransGen (Invokes limit) c c') :
    Prod.Lex (· < ·) (· < ·) (descentMeasure limit c') (descentMeasure limit c) := by
  induction h with
  | single hstep => exact hstep.measure_lt
  | tail _ hstep ih => exact Trans.trans hstep.measure_lt ih

/-- **Termination.** Under every limit and from every depth, an expression has exactly one outcome
by the rules, which is the one that the evaluator computes. No chain of nested jobs goes on for
ever: from an expression to one that is evaluated inside it, the frames that are left and the size
of the expression descend together. And in a well-formed store every lookup on the way walks a
chain of environments that ends. -/
theorem evaluation_terminates (limit : Int) (room : Room) (env : ℕ) (e : Value) (m : Machine) :
    let start : Job × Machine := (.expr room env e, m)
    (∃! r, Evaluates limit (.expr room env e) m r) ∧
    Evaluates limit (.expr room env e) m (runIn limit room env e m) ∧
    (¬ ∃ chain : ℕ → Job × Machine, chain 0 = start ∧
      ∀ i, Invokes limit (chain i) (chain (i + 1))) ∧
    (∀ room₁ env₁ e₁ m₁ room₂ env₂ e₂ m₂,
      Relation.TransGen (Invokes limit) (.expr room₁ env₁ e₁, m₁) (.expr room₂ env₂ e₂, m₂) →
      Prod.Lex (· < ·) (· < ·) (budgetAt limit m₂.depth, e₂.size)
        (budgetAt limit m₁.depth, e₁.size)) ∧
    (m.store.WellFormed → env < m.store.size → e.CapturesBelow m.store.size →
      ∀ room₁ env₁ e₁ m₁,
        Relation.ReflTransGen (Invokes limit) start (.expr room₁ env₁ e₁, m₁) →
        m₁.store.WellFormed ∧ (m₁.store.chain env₁).head? = some env₁ ∧
          m₁.store.IsWay (m₁.store.chain env₁)) := by
  intro start
  have hrun := evaluates_runIn limit room env e m
  refine ⟨⟨_, hrun, fun r hr => hr.unique hrun⟩, hrun, ?_, ?_, ?_⟩
  · rintro ⟨chain, -, hchain⟩
    exact not_invokes_forever limit chain hchain
  · intro room₁ env₁ e₁ m₁ room₂ env₂ e₂ m₂ hnested
    exact measure_lt_of_transGen hnested
  · intro hstore henv he room₁ env₁ e₁ m₁ hreach
    obtain ⟨hstore₁, henv₁, -⟩ :=
      obeys_of_reflTransGen hreach (Store.wellFormed_iff_obeys.mp hstore) ⟨henv, he⟩
    have hwell := Store.wellFormed_iff_obeys.mpr hstore₁
    exact ⟨hwell, hwell.isWay_chain henv₁⟩

lemma Store.wellFormed_root : (Store.empty.create none).2.WellFormed :=
  wellFormed_iff_obeys.mpr (.root _)

/-- The function that applies its argument to itself, applied to itself, has one outcome. -/
theorem self_application_terminates :
    let f : Value := .list [.sym "fn*", .list [.sym "x"], .list [.sym "x", .sym "x"]]
    let m : Machine := ⟨(Store.empty.create none).2, 0, []⟩
    (∃! r, Evaluates 2 (.expr none 0 (.list [f, f])) m r) ∧
      m.store.IsWay (m.store.chain 0) := by
  intro f m
  have hf : (Value.list [f, f]).CapturesBelow m.store.size := by
    simp [f, Value.CapturesBelow, Value.CapturesBelowAll]
  obtain ⟨hunique, -, -, -, hways⟩ := evaluation_terminates 2 none 0 (.list [f, f]) m
  have hstart := hways Store.wellFormed_root Nat.zero_lt_one hf _ _ _ _ .refl
  exact ⟨hunique, hstart.2.2⟩

end TinyLisp
