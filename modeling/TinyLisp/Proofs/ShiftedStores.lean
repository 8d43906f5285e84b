/-
Shifted stores.

A store is a shifted copy of another one when it has some more environments in
the middle: the environments before a place keep their numbers and the later
ones are moved up. Copied bindings agree up to that numbering, and bindings of
hidden names need not agree at all. Looking up a name that is not hidden walks
the same way in both stores, so shifting is a mirror.

* `shiftFrom`: the numbering that moves the later numbers up.
* `Bindings.visible`, `Bindings.renumber`: the bindings of the names that are not
  hidden, and bindings with the environments of their values renumbered.
* `Store.Shifted`: shifted copies.
* `Store.Shifted.get?_eq`: what a name means in a shifted copy.
* `Mirror.shift`: shifting as a mirror.
-/
import TinyLisp.Proofs.Mirror

namespace TinyLisp

/-! ### The numbering -/

/-- The numbering that keeps the first `n` numbers and moves the others up by `d`. -/
def shiftFrom (n d k : ℕ) : ℕ :=
  if k < n then k else k + d

section

variable {n d k : ℕ}

lemma shiftFrom_of_lt (h : k < n) : shiftFrom n d k = k := if_pos h

lemma shiftFrom_of_le (h : n ≤ k) : shiftFrom n d k = k + d := if_neg h.not_gt

lemma shiftFrom_strictMono (n d : ℕ) : StrictMono (shiftFrom n d) := by
  intro j k hlt
  unfold shiftFrom
  split <;> split <;> omega

/-- Moving up by nothing. -/
@[simp] lemma shiftFrom_zero (n : ℕ) : shiftFrom n 0 = id := by
  funext k
  exact ite_self k

end

/-! ### Bindings -/

namespace Bindings

/-- The bindings of the names that are not hidden. -/
def visible (hidden : List String) (b : Bindings) : Bindings :=
  b.filter (·.1 ∉ hidden)

/-- The bindings with the environments of their values renumbered. -/
def renumber (f : ℕ → ℕ) (b : Bindings) : Bindings :=
  b.map (Prod.map id (Value.renumber f))

variable {hidden : List String} {f : ℕ → ℕ} {name : String}

@[simp] lemma visible_nil (b : Bindings) : b.visible [] = b := by
  simp [visible]

/-- A name that is not hidden keeps its value. -/
lemma get?_visible (hname : name ∉ hidden) (b : Bindings) :
    (b.visible hidden).get? name = b.get? name := by
  induction b with
  | nil => rfl
  | cons entry rest ih =>
      obtain ⟨x, v⟩ := entry
      by_cases hx : x = name
      · subst hx
        simp [visible, get?, hname]
      · by_cases hxh : x ∈ hidden <;> simp_all [visible, get?]

lemma get?_renumber (b : Bindings) (name : String) :
    (b.renumber f).get? name = (b.get? name).map (Value.renumber f) :=
  get?_map Function.injective_id _ b name

/-- Binding a hidden name changes nothing that is visible. -/
lemma visible_set_of_mem (hname : name ∈ hidden) (b : Bindings) (v : Value) :
    (b.set name v).visible hidden = b.visible hidden := by
  induction b with
  | nil => simp [set, visible, hname]
  | cons entry rest ih =>
      obtain ⟨x, w⟩ := entry
      by_cases hx : x = name
      · subst hx
        simp [set, visible, hname]
      · by_cases hxh : x ∈ hidden <;> simp_all [visible, set]

lemma visible_set_of_notMem (hname : name ∉ hidden) (b : Bindings) (v : Value) :
    (b.set name v).visible hidden = (b.visible hidden).set name v := by
  induction b with
  | nil => simp [set, visible, hname]
  | cons entry rest ih =>
      obtain ⟨x, w⟩ := entry
      by_cases hx : x = name
      · subst hx
        simp [set, visible, hname]
      · by_cases hxh : x ∈ hidden <;> simp_all [visible, set]

lemma renumber_set (b : Bindings) (name : String) (v : Value) :
    (b.set name v).renumber f = (b.renumber f).set name (v.renumber f) :=
  set_map Function.injective_id _ b name v

/-- Binding a name on both sides of a numbering. -/
lemma visible_set_renumber {b b' : Bindings}
    (h : b'.visible hidden = (b.visible hidden).renumber f) (name : String) (v : Value) :
    (b'.set name (v.renumber f)).visible hidden = ((b.set name v).visible hidden).renumber f := by
  by_cases hname : name ∈ hidden
  · rw [visible_set_of_mem hname, visible_set_of_mem hname, h]
  · rw [visible_set_of_notMem hname, visible_set_of_notMem hname, h, renumber_set]

@[simp] lemma renumber_id (b : Bindings) : b.renumber id = b := by
  have hid : Value.renumber id = id := funext Value.renumber_id
  rw [renumber, hid, Prod.map_id, List.map_id]

lemma renumber_eq_self {n : ℕ} (hf : ∀ k < n, f k = k) {b : Bindings}
    (h : ∀ entry ∈ b, entry.2.CapturesBelow n) : b.renumber f = b := by
  refine (List.map_congr_left fun entry hentry => ?_).trans (List.map_id' b)
  exact Prod.ext rfl (Value.renumber_eq_self hf (h entry hentry))

end Bindings

/-! ### Shifted copies -/

/-- A copy of a store with `d` more environments after the first `n`, in which the bindings of
hidden names may differ. No other binding refers to a hidden name. -/
structure Store.Shifted (n d : ℕ) (hidden : List String) (s s' : Store) : Prop where
  le_size : n ≤ s.size
  size_eq : s'.size = s.size + d
  outer?_eq : ∀ k, s'.outer? (shiftFrom n d k) = (s.outer? k).map (shiftFrom n d)
  visible_eq : ∀ k, (s'.bindings (shiftFrom n d k)).visible hidden =
    ((s.bindings k).visible hidden).renumber (shiftFrom n d)
  disjoint : ∀ k, ∀ entry ∈ s.bindings k, entry.1 ∉ hidden →
    entry.2.closureReferences.Disjoint hidden

namespace Store.Shifted

variable {n d : ℕ} {hidden : List String} {s s' : Store}

lemma size_shift (h : Shifted n d hidden s s') : s'.size = shiftFrom n d s.size := by
  rw [h.size_eq, shiftFrom_of_le h.le_size]

lemma lt_size_iff (h : Shifted n d hidden s s') {k : ℕ} :
    shiftFrom n d k < s'.size ↔ k < s.size := by
  rw [h.size_shift, (shiftFrom_strictMono n d).lt_iff_lt]

/-- The way outwards in the copy. -/
lemma chain_eq (h : Shifted n d hidden s s') (env : ℕ) :
    s'.chain (shiftFrom n d env) = (s.chain env).map (shiftFrom n d) := by
  induction env using Nat.strongRecOn with
  | _ env ih =>
    rw [chain, chain]
    by_cases henv : env < s.size
    · rw [if_pos henv, if_pos (h.lt_size_iff.mpr henv), h.outer?_eq, List.map_cons]
      cases s.outer? env with
      | none => rfl
      | some outer =>
          by_cases hlt : outer < env
          · simp only [Option.map_some, if_pos hlt,
              if_pos (shiftFrom_strictMono n d hlt), ih outer hlt]
          · have hnot : ¬ shiftFrom n d outer < shiftFrom n d env := by
              rwa [(shiftFrom_strictMono n d).lt_iff_lt]
            simp only [Option.map_some, if_neg hlt, if_neg hnot, List.map_nil]
    · rw [if_neg henv, if_neg fun hlt => henv (h.lt_size_iff.mp hlt), List.map_nil]

/-- A name that is not hidden has the value of the copied environment. -/
lemma get?_bindings_eq (h : Shifted n d hidden s s') {name : String} (hname : name ∉ hidden)
    (k : ℕ) : (s'.bindings (shiftFrom n d k)).get? name =
      ((s.bindings k).get? name).map (Value.renumber (shiftFrom n d)) := by
  rw [← Bindings.get?_visible hname, h.visible_eq, Bindings.get?_renumber,
    Bindings.get?_visible hname]

/-- **Lookups in a shifted copy**: a name that is not hidden means the copied value. -/
theorem get?_eq (h : Shifted n d hidden s s') (env : ℕ) {name : String} (hname : name ∉ hidden) :
    s'.get? (shiftFrom n d env) name =
      (s.get? env name).map (Value.renumber (shiftFrom n d)) := by
  have hfind : s'.find? (shiftFrom n d env) name =
      (s.find? env name).map (shiftFrom n d) := by
    rw [find?, find?, h.chain_eq, List.find?_map]
    congr 2
    funext k
    rw [Function.comp_apply, h.get?_bindings_eq hname, Option.isSome_map]
  rw [get?, get?, hfind]
  cases s.find? env name with
  | none => rfl
  | some k => exact h.get?_bindings_eq hname k

lemma create (h : Shifted n d hidden s s') (env : ℕ) :
    Shifted n d hidden (s.create (some env)).2 (s'.create (some (shiftFrom n d env))).2 where
  le_size := h.le_size.trans (by simp)
  size_eq := by rw [size_create, size_create, h.size_eq, Nat.add_right_comm]
  outer?_eq k := by
    simp only [outer?_create, h.size_shift, (shiftFrom_strictMono n d).injective.eq_iff]
    split
    · rfl
    · exact h.outer?_eq k
  visible_eq k := by rw [bindings_create, bindings_create, h.visible_eq]
  disjoint k := by rw [bindings_create]; exact h.disjoint k

lemma set (h : Shifted n d hidden s s') (env : ℕ) (name : String) {v : Value}
    (hv : v.closureReferences.Disjoint hidden) :
    Shifted n d hidden (s.set env name v)
      (s'.set (shiftFrom n d env) name (v.renumber (shiftFrom n d))) where
  le_size := by rw [size_set]; exact h.le_size
  size_eq := by rw [size_set, size_set, h.size_eq]
  outer?_eq k := by rw [outer?_set, outer?_set, h.outer?_eq]
  visible_eq k := by
    by_cases hk : k < s.size
    · simp only [bindings_set hk, bindings_set (h.lt_size_iff.mpr hk),
        (shiftFrom_strictMono n d).injective.eq_iff]
      split
      · exact Bindings.visible_set_renumber (h.visible_eq k) name v
      · exact h.visible_eq k
    · have hk' : ¬ shiftFrom n d k < s'.size := fun hlt => hk (h.lt_size_iff.mp hlt)
      rw [bindings_eq_nil (by simpa using hk'), bindings_eq_nil (by simpa using hk)]
      rfl
  disjoint k entry hentry hname := by
    rcases mem_bindings_set hentry with rfl | hmem
    · exact hv
    · exact h.disjoint k entry hmem hname

end Store.Shifted

/-- **Shifting is a mirror.** -/
def Mirror.shift (n d : ℕ) (hidden : List String) : Mirror where
  number := shiftFrom n d
  hidden := hidden
  Related := Store.Shifted n d hidden
  size_eq h := h.size_shift
  get?_eq h env _ hname := h.get?_eq env hname
  disjoint h _ _ _ hname hv := by
    obtain ⟨k, -, hmem⟩ := Store.exists_mem_of_get? hv
    exact h.disjoint k _ hmem hname
  create h env := h.create env
  set h env name _ hv := h.set env name hv

end TinyLisp
