/-
What the operations on environments change.

Every operation adds an environment or changes the bindings of one. The facts
here say what becomes of the size, of the links and of the bindings, for any
number that an environment may have.

* `Bindings.mem_of_get?`, `Bindings.mem_set`, `Bindings.eq_filterMap`: the entries
  of bindings.
* `Bindings.get?_map`, `Bindings.set_map`: bindings with other names and values.
* `exists_mem_of_get?`: what a name means is bound on the way outwards.
* `bindings_create`, `bindings_set`, `outer?_create`: bindings and links after an
  operation.
* `size_setAll`, `size_createWith`: the size after several.
* `BindsOnly`: a property of every value that a store binds, after an operation.
* `chain_eq_of_links`: one step of the way outwards.
-/
import Mathlib.Tactic
import TinyLisp.Environment.Store

namespace TinyLisp

/-! ### Entries -/

namespace Bindings

lemma mem_of_get? {b : Bindings} {name : String} {v : Value} (h : b.get? name = some v) :
    (name, v) ∈ b := by
  induction b with
  | nil => nomatch h
  | cons entry rest ih =>
      obtain ⟨x, w⟩ := entry
      rw [get?] at h
      split at h
      · next hx =>
          have hw : w = v := Option.some.inj h
          rw [hx, hw]
          exact List.mem_cons_self
      · exact List.mem_cons_of_mem _ (ih h)

lemma mem_set {b : Bindings} {name : String} {v : Value} {entry : String × Value}
    (h : entry ∈ b.set name v) : entry = (name, v) ∨ entry ∈ b := by
  induction b with
  | nil => exact .inl (List.mem_singleton.mp h)
  | cons first rest ih =>
      obtain ⟨x, w⟩ := first
      rw [set] at h
      split at h
      · rcases List.mem_cons.mp h with h | h
        · exact .inl h
        · exact .inr (List.mem_cons_of_mem _ h)
      · rcases List.mem_cons.mp h with h | h
        · exact .inr (h ▸ List.mem_cons_self)
        · exact (ih h).imp_right (List.mem_cons_of_mem _)

/-- A name is bound after binding it. -/
lemma mem_names_set (b : Bindings) (name : String) (v : Value) : name ∈ (b.set name v).names := by
  rw [names_set]
  split
  · assumption
  · exact List.mem_append_right _ List.mem_cons_self

/-- Binding a name binds none twice. -/
lemma nodup_names_set {b : Bindings} (h : b.names.Nodup) (name : String) (v : Value) :
    (b.set name v).names.Nodup := by
  rw [names_set]
  split
  · exact h
  · next hname => exact List.Nodup.append h (List.nodup_singleton name) (by simpa using hname)

/-- Bindings without a name twice are told by their names and by what these mean. -/
lemma eq_filterMap {b : Bindings} (h : b.names.Nodup) :
    b = b.names.filterMap fun name => (b.get? name).map (name, ·) := by
  induction b with
  | nil => rfl
  | cons entry rest ih =>
      obtain ⟨x, v⟩ := entry
      obtain ⟨hx, hrest⟩ := List.nodup_cons.mp h
      have hlater :
          (names rest).filterMap (fun name => (get? ((x, v) :: rest) name).map (name, ·)) =
            (names rest).filterMap fun name => (get? rest name).map (name, ·) := by
        refine List.filterMap_congr fun name hname => ?_
        have hne : x ≠ name := fun heq => hx (heq ▸ hname)
        rw [get?, if_neg hne]
      have hnames : names ((x, v) :: rest) = x :: names rest := rfl
      rw [hnames, List.filterMap_cons, hlater, ← ih hrest]
      simp [get?]

section

variable {f : String → String} (hf : Function.Injective f) (g : Value → Value)
include hf

/-- What a name is bound to, where the names are spelled by `f` and the values mapped by `g`. -/
lemma get?_map (b : Bindings) (name : String) :
    get? (b.map (Prod.map f g)) (f name) = (b.get? name).map g := by
  induction b with
  | nil => rfl
  | cons entry rest ih =>
      obtain ⟨x, v⟩ := entry
      by_cases hx : x = name
      · simp [get?, hx]
      · simp [get?, hx, hf.ne hx, ih]

lemma set_map (b : Bindings) (name : String) (v : Value) :
    (b.set name v).map (Prod.map f g) = set (b.map (Prod.map f g)) (f name) (g v) := by
  induction b with
  | nil => rfl
  | cons entry rest ih =>
      obtain ⟨x, w⟩ := entry
      by_cases hx : x = name
      · simp [set, hx]
      · simp [set, hx, hf.ne hx, ih]

end

end Bindings

/-! ### Environments -/

namespace Store

variable {s s' : Store}

lemma bindings_eq_of_frame?_eq {k : ℕ} (h : s'.frame? k = s.frame? k) :
    s'.bindings k = s.bindings k := by
  rw [bindings, bindings, h]

lemma outer?_eq_of_frame?_eq {k : ℕ} (h : s'.frame? k = s.frame? k) :
    s'.outer? k = s.outer? k := by
  rw [outer?, outer?, h]

/-- What a name means is bound in some environment on the way outwards. -/
lemma exists_mem_of_get? {env : ℕ} {name : String} {v : Value}
    (h : s.get? env name = some v) : ∃ k ∈ s.chain env, (name, v) ∈ s.bindings k := by
  obtain ⟨k, hk, hv⟩ := Option.bind_eq_some_iff.mp h
  exact ⟨k, List.mem_of_find?_eq_some hk, Bindings.mem_of_get? hv⟩

lemma bindings_eq_nil {k : ℕ} (h : s.size ≤ k) : s.bindings k = [] := by
  have hframe : s.frame? k = none := Array.getElem?_eq_none h
  rw [bindings, hframe]

lemma bindings_set {env k : ℕ} (hk : k < s.size) (name : String) (value : Value) :
    (s.set env name value).bindings k =
      if env = k then (s.bindings k).set name value else s.bindings k := by
  have hframe : s.frame? k = some s.frames[k] := Array.getElem?_eq_getElem hk
  by_cases h : env = k
  · rw [if_pos h, bindings, bindings, frame?_set, if_pos h, h, hframe]
    rfl
  · rw [if_neg h, bindings, bindings, frame?_set, if_neg h]

lemma mem_bindings_set {env k : ℕ} {name : String} {v : Value}
    {entry : String × Value} (h : entry ∈ (s.set env name v).bindings k) :
    entry = (name, v) ∨ entry ∈ s.bindings k := by
  by_cases hk : k < s.size
  · rw [bindings_set hk] at h
    split at h
    · exact Bindings.mem_set h
    · exact .inr h
  · rw [bindings_eq_nil (by simpa using hk)] at h
    nomatch h

lemma bindings_create (s : Store) (outer : Option ℕ) (k : ℕ) :
    (s.create outer).2.bindings k = s.bindings k := by
  by_cases hk : k = s.size
  · rw [bindings_eq_nil hk.ge, bindings, frame?_create, if_pos hk]
  · rw [bindings, bindings, frame?_create, if_neg hk]

lemma outer?_create (s : Store) (outer : Option ℕ) (k : ℕ) :
    (s.create outer).2.outer? k = if k = s.size then outer else s.outer? k := by
  rw [outer?, outer?, frame?_create]
  split <;> rfl

lemma size_setAll (s : Store) (env : ℕ) (entries : List (String × Value)) :
    (s.setAll env entries).size = s.size := by
  induction entries generalizing s with
  | nil => rfl
  | cons entry rest ih => exact (ih _).trans (size_set _ _ _ _)

lemma size_createWith (s : Store) (outer : ℕ) (entries : List (String × Value)) :
    (s.createWith outer entries).2.size = s.size + 1 :=
  (size_setAll _ _ _).trans (size_create _ _)

/-! ### What a store binds -/

/-- Every value that a store binds has a property. -/
def BindsOnly (s : Store) (P : Value → Prop) : Prop :=
  ∀ k, ∀ entry ∈ s.bindings k, P entry.2

namespace BindsOnly

variable {P P' : Value → Prop}

lemma mono (h : s.BindsOnly P) (hP : ∀ v, P v → P' v) : s.BindsOnly P' :=
  fun k entry hentry => hP _ (h k entry hentry)

lemma get? (h : s.BindsOnly P) {env : ℕ} {name : String} {v : Value}
    (hv : s.get? env name = some v) : P v := by
  obtain ⟨k, -, hmem⟩ := exists_mem_of_get? hv
  exact h k _ hmem

lemma set (h : s.BindsOnly P) (env : ℕ) (name : String) {v : Value} (hv : P v) :
    (s.set env name v).BindsOnly P := by
  intro k entry hentry
  rcases mem_bindings_set hentry with rfl | hmem
  · exact hv
  · exact h k entry hmem

lemma create (h : s.BindsOnly P) (outer : Option ℕ) : (s.create outer).2.BindsOnly P := by
  intro k entry hentry
  rw [bindings_create] at hentry
  exact h k entry hentry

lemma setAll (h : s.BindsOnly P) (env : ℕ) (entries : List (String × Value))
    (hentries : ∀ entry ∈ entries, P entry.2) : (s.setAll env entries).BindsOnly P := by
  induction entries generalizing s with
  | nil => exact h
  | cons entry rest ih =>
      exact ih (h.set env entry.1 (hentries entry List.mem_cons_self))
        fun other hother => hentries other (List.mem_cons_of_mem _ hother)

/-- Parameters are bound to the arguments only. -/
lemma createWith (h : s.BindsOnly P) (outer : ℕ) (params : List String) {args : List Value}
    (hargs : ∀ v ∈ args, P v) : (s.createWith outer (params.zip args)).2.BindsOnly P :=
  (h.create (some outer)).setAll _ _ fun entry hentry =>
    hargs entry.2 (List.of_mem_zip hentry).2

end BindsOnly

/-! ### The way outwards -/

/-- An environment whose link leads to an earlier one comes before the way outwards from there. -/
lemma chain_eq_of_links {env : ℕ} (henv : env < s.size)
    (hlink : ∀ outer, s.outer? env = some outer → outer < env) :
    s.chain env = env :: (s.outer? env).elim [] s.chain := by
  rw [chain, if_pos henv]
  cases houter : s.outer? env with
  | none => rfl
  | some outer => simp only [if_pos (hlink outer houter), Option.elim_some]

end Store

end TinyLisp
