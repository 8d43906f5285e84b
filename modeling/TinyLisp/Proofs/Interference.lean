/-
Bindings that are not referred to.

An evaluation reads only the names that its expression refers to, and those that
the closures refer to which it comes across. Stores that differ in the bindings
of other names only are mirrored to each other with every environment at its
place, so the evaluation comes to the same value or fault on both, and they still
differ in those bindings only. The symbol of a special form is never looked up,
so binding it shadows nothing.

* `Store.SameBut`: stores that differ in the bindings of some names only.
* `Store.Avoids`: stores in which no other name is bound to a value that refers to
  those names.
* `Store.shifted_zero_iff`: such stores are copies of each other, shifted by
  nothing.
* `unreferenced_names_do_not_interfere` (**non-interference**).
-/
import TinyLisp.Proofs.ShiftedStores

namespace TinyLisp

namespace Store

/-! ### Stores that differ in some bindings only -/

/-- Two stores with the same environments and links, which differ only in whether and to what the
hidden names are bound. -/
structure SameBut (hidden : List String) (s s' : Store) : Prop where
  size_eq : s'.size = s.size
  outer?_eq : ∀ k, s'.outer? k = s.outer? k
  visible_eq : ∀ k, (s'.bindings k).visible hidden = (s.bindings k).visible hidden

/-- No closure in a binding of a name that is not hidden refers to a hidden name. -/
def Avoids (hidden : List String) (s : Store) : Prop :=
  ∀ k, ∀ entry ∈ s.bindings k, entry.1 ∉ hidden → entry.2.closureReferences.Disjoint hidden

variable {hidden : List String} {s s' : Store}

/-- Binding a hidden name. -/
lemma SameBut.set {x : String} (hx : x ∈ hidden) (s : Store) (env : ℕ) (v : Value) :
    s.SameBut hidden (s.set env x v) where
  size_eq := size_set _ _ _ _
  outer?_eq k := outer?_set _ _ _ _ _
  visible_eq k := by
    by_cases hk : k < s.size
    · rw [bindings_set hk]
      split
      · exact Bindings.visible_set_of_mem hx _ _
      · rfl
    · rw [bindings_eq_nil (by simpa using hk), bindings_eq_nil (by simpa using hk)]

/-- Such stores are copies of each other that are shifted by nothing. -/
lemma shifted_zero_iff : Shifted 0 0 hidden s s' ↔ s.SameBut hidden s' ∧ s.Avoids hidden := by
  constructor
  · intro h
    refine ⟨⟨h.size_eq, fun k => ?_, fun k => ?_⟩, h.disjoint⟩
    · simpa using h.outer?_eq k
    · simpa using h.visible_eq k
  · rintro ⟨h, havoids⟩
    refine ⟨Nat.zero_le _, h.size_eq, fun k => ?_, fun k => ?_, havoids⟩
    · simpa using h.outer?_eq k
    · simpa using h.visible_eq k

end Store

/-! ### Runs on such stores -/

/-- **Runs on stores that differ in hidden names only** come to the same value or fault, and leave
such stores. -/
theorem Evaluates.sameBut {hidden : List String} {limit : Int} {room : Room} {env : ℕ} {e : Value}
    {m m' : Machine} (he : e.references.Disjoint hidden) (hsame : m.store.SameBut hidden m'.store)
    (havoids : m.store.Avoids hidden) (hdepth : m'.depth = m.depth) :
    let r : Outcome := runIn limit room env e m
    let r' : Outcome := runIn limit room env e m'
    r'.result = r.result ∧ r.machine.store.SameBut hidden r'.machine.store ∧
      r.machine.store.Avoids hidden := by
  intro r r'
  have hrun : Evaluates limit (.expr room env e) m r := evaluates_runIn limit room env e m
  have hmachines : (Mirror.shift 0 0 hidden).Machines m m' :=
    ⟨Store.shifted_zero_iff.mpr ⟨hsame, havoids⟩, hdepth⟩
  obtain ⟨r₁, hrun₁, hout⟩ := hrun.mirror (M := .shift 0 0 hidden) he hmachines
  have hnumber : (Mirror.shift 0 0 hidden).number = id := shiftFrom_zero 0
  rw [hnumber, Job.renumber, Value.renumber_id, id] at hrun₁
  have hr₁ : r' = r₁ := evaluates_expr_iff.mp hrun₁
  rw [← hr₁] at hout
  refine ⟨?_, Store.shifted_zero_iff.mp hout.related⟩
  rw [hout.result_eq, hnumber]
  cases r.result with
  | error f => rfl
  | ok v => rw [Except.map, Value.renumber_id]

/-! ### Non-interference -/

/-- The head of a special form announces it. -/
lemma SpecialForm.ofHead?_name (form : SpecialForm) : ofHead? (.sym form.name) = some form := by
  cases form <;> rfl

/-- A special form is evaluated by its own rule, whatever its symbol is bound to. -/
lemma evaluates_form_runIn {limit : Int} {room : Room} {env : ℕ} {form : SpecialForm}
    {parts : List Value} {m : Machine} (hroom : room.fits 1 = true)
    (hinner : (room.less 1).fits 1 = true) :
    Evaluates limit (.form ((room.less 1).less 1) env form parts) m
      (runIn limit room env (.list (.sym form.name :: parts)) m) := by
  obtain ⟨r, hr⟩ := exists_evaluates limit (.form ((room.less 1).less 1) env form parts) m
  have hrun := Evaluates.special hroom form.ofHead?_name hinner hr
  rwa [evaluates_expr_iff.mp hrun]

/-- **Bindings that are not referred to cannot interfere.** Take a name, an expression that does
not refer to it, and two stores with the same environments and links that differ only in whether
and to what the name is bound, where the closures in the bindings of other names do not refer to it
either. Then the expression has the same value or fault on both, and the stores afterwards differ
in the bindings of that name only. So binding one more name changes nothing for the expression; and
a special form goes by its own rule whatever its symbol is bound to. -/
theorem unreferenced_names_do_not_interfere {x : String} {e : Value} (he : x ∉ e.references)
    {m m' : Machine} (hsame : m.store.SameBut [x] m'.store) (havoids : m.store.Avoids [x])
    (hdepth : m'.depth = m.depth) (limit : Int) (room : Room) (env : ℕ) :
    let r : Outcome := runIn limit room env e m
    let r' : Outcome := runIn limit room env e m'
    (r'.result = r.result ∧ r.machine.store.SameBut [x] r'.machine.store) ∧
    (∀ k v, Outcome.result (runIn limit room env e (m.bind k x v)) = r.result) ∧
    ∀ (form : SpecialForm) (k : ℕ) (v : Value) (parts : List Value), room.fits 1 = true →
      (room.less 1).fits 1 = true →
      Evaluates limit (.form ((room.less 1).less 1) env form parts) (m.bind k form.name v)
        (runIn limit room env (.list (.sym form.name :: parts)) (m.bind k form.name v)) := by
  intro r r'
  have hdisjoint : e.references.Disjoint [x] := List.disjoint_singleton.mpr he
  obtain ⟨hresult, hstores, -⟩ := Evaluates.sameBut hdisjoint hsame havoids hdepth
  refine ⟨⟨hresult, hstores⟩, fun k v => ?_, fun form k v parts hroom hinner => ?_⟩
  · have hbound : m.store.SameBut [x] (m.bind k x v).store :=
      .set (List.mem_singleton_self x) _ _ _
    exact (Evaluates.sameBut hdisjoint hbound havoids rfl).1
  · exact evaluates_form_runIn hroom hinner

/-- A conditional where its symbol is bound. -/
theorem bound_conditional_is_not_shadowed :
    let e : Value := .list [.sym "if", .bool true, .int 1, .int 2]
    let m : Machine := ⟨(Store.empty.create none).2, 0, []⟩
    let m' : Machine := m.bind 0 "if" (.int 5)
    Outcome.result (runIn 500 none 0 e m') = .ok (.int 1) := by
  intro e m m'
  have he : "if" ∉ e.references := by decide
  have havoids : m.store.Avoids ["if"] := by
    intro k entry hentry
    rw [Store.bindings_create] at hentry
    nomatch hentry
  have hsame : m.store.SameBut ["if"] m'.store := .set (List.mem_singleton_self _) _ _ _
  obtain ⟨⟨hresult, -⟩, -, -⟩ :=
    unreferenced_names_do_not_interfere he hsame havoids rfl 500 none 0
  exact hresult.trans rfl

end TinyLisp
