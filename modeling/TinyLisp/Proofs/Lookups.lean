/-
What a name means, one environment at a time.

A lookup asks the environment itself and then the one around it. The names that
are visible from an environment are those that a lookup from it finds; since no
operation takes a binding away or moves an environment, they never disappear.

* `Store.get?_step`: a lookup in one environment and then outwards.
* `Store.le_of_mem_chain`: the way outwards leads to earlier environments.
* `Store.visible`: the names that are visible from an environment.
* `Store.Keeps.visible_subset`: visible names stay visible.
* `Store.visible_subset_createWith`: what is visible from the environment of a
  call.
-/
import TinyLisp.Proofs.FrameLaw

namespace TinyLisp.Store

variable {s s' : Store} {env outer : ℕ} {name : String}

/-! ### One step outwards -/

/-- An environment is asked first, and then the one around it if that is an earlier one. -/
lemma get?_step (henv : env < s.size) (name : String) :
    s.get? env name = ((s.bindings env).get? name).or
      (((s.outer? env).filter (· < env)).bind fun outer => s.get? outer name) := by
  rw [get?, find?, chain, if_pos henv, List.find?_cons]
  cases hown : (s.bindings env).get? name with
  | some v => simp [hown]
  | none =>
      cases s.outer? env with
      | none => simp
      | some outer =>
          by_cases hlt : outer < env
          · simp [Option.filter, hlt, get?, find?]
          · simp [Option.filter, hlt]

/-- The way outwards leads to earlier environments. -/
lemma le_of_mem_chain {c k : ℕ} (h : c ∈ s.chain k) : c ≤ k := by
  induction k using Nat.strongRecOn with
  | _ k ih =>
      rw [chain] at h
      split at h
      · rcases List.mem_cons.mp h with rfl | h
        · exact le_rfl
        · split at h
          · split at h
            · next outer _ hlt => exact (ih outer hlt h).trans hlt.le
            · nomatch h
          · nomatch h
      · nomatch h

lemma get?_eq_none_of_size_le (h : s.size ≤ env) (name : String) : s.get? env name = none := by
  rw [get?, find?, chain, if_neg h.not_gt]
  rfl

/-! ### Visible names -/

/-- The names that mean something in an environment. -/
def visible (s : Store) (env : ℕ) : Set String :=
  {name | s.contains env name = true}

/-- A visible name is bound somewhere on the way outwards. -/
lemma mem_visible : name ∈ s.visible env ↔ ∃ k ∈ s.chain env, name ∈ (s.bindings k).names := by
  simp [visible, contains, find?, Bindings.get?_isSome_iff]

/-- A lookup fails on the names that are not visible. -/
lemma get?_eq_none_iff : s.get? env name = none ↔ name ∉ s.visible env := by
  rw [visible, Set.mem_ofPred_eq, contains, get?]
  cases hfind : s.find? env name with
  | none => simp
  | some k =>
      have hbound := List.find?_some hfind
      simpa [Option.isSome_iff_ne_none] using hbound

lemma visible_eq_empty (h : s.size ≤ env) : s.visible env = ∅ :=
  Set.eq_empty_of_forall_notMem fun _ =>
    get?_eq_none_iff.mp (get?_eq_none_of_size_le h _)

lemma mem_chain_self (h : env < s.size) : env ∈ s.chain env := by
  rw [chain, if_pos h]
  exact List.mem_cons_self

/-- No environment is moved, so the way outwards stays. -/
lemma Keeps.chain_eq {may : ℕ → Set String} (h : s.Keeps may s') (henv : env < s.size) :
    s'.chain env = s.chain env := by
  induction env using Nat.strongRecOn with
  | _ env ih =>
      rw [chain, chain, if_pos henv, if_pos (henv.trans_le h.size_le), h.outer?_eq env henv]
      cases s.outer? env with
      | none => rfl
      | some outer =>
          by_cases hlt : outer < env
          · simp only [if_pos hlt, ih outer hlt (hlt.trans henv)]
          · simp only [if_neg hlt]

/-- **Visible names stay visible.** -/
theorem Keeps.visible_subset {may : ℕ → Set String} (h : s.Keeps may s') (env : ℕ) :
    s.visible env ⊆ s'.visible env := by
  by_cases henv : env < s.size
  · intro name hname
    obtain ⟨k, hk, hbound⟩ := mem_visible.mp hname
    have hlt : k < s.size := by
      by_contra hle
      rw [bindings_eq_nil (Nat.not_lt.mp hle)] at hbound
      nomatch hbound
    exact mem_visible.mpr ⟨k, h.chain_eq henv ▸ hk, h.names_subset k hlt hbound⟩
  · rw [visible_eq_empty (Nat.not_lt.mp henv)]
    exact Set.empty_subset _

/-! ### Visible names after an operation -/

/-- A binding makes its name visible. -/
lemma mem_visible_set (henv : env < s.size) (name : String) (v : Value) :
    name ∈ (s.set env name v).visible env := by
  refine mem_visible.mpr ⟨env, mem_chain_self (by rwa [size_set]), ?_⟩
  rw [bindings_set henv, if_pos rfl]
  exact Bindings.mem_names_set _ _ _

/-- Whatever is bound, visible names stay visible. -/
lemma visible_subset_set (s : Store) (env : ℕ) (name : String) (v : Value) (k : ℕ) :
    s.visible k ⊆ (s.set env name v).visible k :=
  (Keeps.set_any s env name v).visible_subset k

/-- What is visible from an environment is visible from a new one inside it. -/
lemma visible_subset_create (s : Store) (outer : ℕ) :
    s.visible outer ⊆ (s.create (some outer)).2.visible s.size := by
  by_cases houter : outer < s.size
  · have hkeeps := Keeps.create (fun _ => ∅) s (some outer)
    intro name hname
    obtain ⟨k, hk, hbound⟩ := mem_visible.mp hname
    refine mem_visible.mpr ⟨k, ?_, by rwa [bindings_create]⟩
    rw [chain, if_pos (by simp), outer?_create, if_pos rfl]
    simp only [if_pos houter]
    exact List.mem_cons_of_mem _ (hkeeps.chain_eq houter ▸ hk)
  · rw [visible_eq_empty (Nat.not_lt.mp houter)]
    exact Set.empty_subset _

/-- The names of some bindings are bound where they are made. -/
lemma mem_names_setAll (henv : env < s.size) {entries : List (String × Value)}
    {entry : String × Value} (h : entry ∈ entries) :
    entry.1 ∈ ((s.setAll env entries).bindings env).names := by
  induction entries generalizing s with
  | nil => nomatch h
  | cons first rest ih =>
      have henv' : env < (s.set env first.1 first.2).size := by rwa [size_set]
      rcases List.mem_cons.mp h with rfl | h
      · refine (Keeps.setAll_any _ env rest).names_subset env henv' ?_
        rw [bindings_set henv, if_pos rfl]
        exact Bindings.mem_names_set _ _ _
      · exact ih henv' h

/-- A call binds every parameter in its environment. -/
lemma mem_names_createWith (s : Store) (outer : ℕ) {params : List String} {args : List Value}
    (hlen : params.length = args.length) (hname : name ∈ params) :
    name ∈ ((s.createWith outer (params.zip args)).2.bindings s.size).names := by
  have hfirst : name ∈ (params.zip args).map Prod.fst := by rwa [List.map_fst_zip hlen.le]
  obtain ⟨entry, hentry, rfl⟩ := List.mem_map.mp hfirst
  exact mem_names_setAll (s.size_create (some outer) ▸ Nat.lt_succ_self _) hentry

/-- From the environment of a call the parameters are visible, and what the function sees. -/
lemma visible_subset_createWith (s : Store) (outer : ℕ) {params : List String}
    {args : List Value} (hlen : params.length = args.length) :
    s.visible outer ∪ {name | name ∈ params} ⊆
      (s.createWith outer (params.zip args)).2.visible s.size := by
  refine Set.union_subset ?_ fun name hname => ?_
  · exact (visible_subset_create s outer).trans ((Keeps.setAll_any _ _ _).visible_subset _)
  · refine mem_visible.mpr ⟨s.size, mem_chain_self ?_, mem_names_createWith s outer hlen hname⟩
    rw [size_createWith]
    exact Nat.lt_succ_self _

end TinyLisp.Store
