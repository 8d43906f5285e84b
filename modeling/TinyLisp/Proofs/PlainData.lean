/-
The equality of plain data.

The language compares trees of lists over nil, booleans, integers and strings.
On these, its equality is equality, and no other value is equal to anything: a
name, a function or a value of the host anywhere in a tree makes it unequal even
to itself. So two trees that print and read back are equal exactly when they are
printed alike.

* `Value.IsDatum`, `Value.IsIncomparable`: the leaves that are compared, and
  those that are not.
* `Value.part?`, `Value.allLeaves_iff_part?`: the part of a value at a place.
* `Value.equal_eq_true_iff`: the equality of plain data.
* `Value.sameKey_self`: it is finer than the equality of keys.
* `Value.IsWritable`, `Value.equal_iff_print_eq`: data that are read back, and
  their texts.
* `equality_is_sameness_of_plain_data` (**sameness of plain data**).
-/
import TinyLisp.Proofs.PrintedTexts
import TinyLisp.Proofs.Termination

namespace TinyLisp

namespace Value

/-! ### Data and their parts -/

/-- The leaves of plain data. -/
def IsDatum : Value → Prop
  | nil | bool _ | int _ | str _ => True
  | _ => False

/-- The values that are equal to nothing. -/
def IsIncomparable : Value → Prop
  | sym _ | kw _ | builtin _ | closure _ _ _ | foreign _ => True
  | _ => False

/-- The part of a value at a place, which is a position in each list on the way. -/
def part? : Value → List ℕ → Option Value
  | v, [] => some v
  | list items, i :: place => items[i]?.bind fun v => v.part? place
  | _, _ :: _ => none

section

variable {p : Value → Prop} {v : Value}

lemma AllLeaves.part? (h : v.AllLeaves p) {place : List ℕ} {w : Value}
    (hw : v.part? place = some w) : w.AllLeaves p := by
  induction place generalizing v with
  | nil => rwa [← Option.some.inj hw]
  | cons i place ih =>
      cases v with
      | list items =>
          obtain ⟨u, hu, hw⟩ := Option.bind_eq_some_iff.mp hw
          exact ih (allLeaves_list.mp h u (List.mem_of_getElem? hu)) hw
      | nil | bool _ | int _ | str _ | sym _ | kw _ | builtin _ | closure _ _ _ | foreign _ =>
          nomatch hw

/-- A property of the leaves is one of all parts that are no lists. -/
lemma allLeaves_iff_part? : v.AllLeaves p ↔
    ∀ place w, v.part? place = some w → (∀ items, w ≠ list items) → p w := by
  refine ⟨fun h place w hw => (h.part? hw).of_leaf, fun h => ?_⟩
  induction v using Value.induct with
  | list items ih =>
      refine .list fun u hu => ih u hu fun place w hw => ?_
      obtain ⟨i, hi⟩ := List.mem_iff_getElem?.mp hu
      exact h (i :: place) w (by rw [Value.part?, hi, Option.bind_some, hw])
  | nil | bool _ | int _ | str _ | sym _ | kw _ | builtin _ | closure _ _ _ | foreign _ =>
      exact .leaf nofun (h [] _ rfl nofun)

/-- Plain data have no incomparable part. -/
lemma allLeaves_isDatum_iff : v.AllLeaves IsDatum ↔
    ∀ place w, v.part? place = some w → ¬ w.IsIncomparable := by
  rw [allLeaves_iff_part?]
  refine forall_congr' fun place => forall_congr' fun w => forall_congr' fun _ => ?_
  cases w <;> simp [IsDatum, IsIncomparable]

end

/-! ### Equality -/

lemma equalItems_eq_true_iff {xs ys : List Value}
    (ih : ∀ x ∈ xs, ∀ y, x.equal y = true ↔ x = y ∧ x.AllLeaves IsDatum) :
    equalItems xs ys = true ↔ xs = ys ∧ ∀ x ∈ xs, x.AllLeaves IsDatum := by
  induction xs generalizing ys with
  | nil => cases ys <;> simp [equalItems]
  | cons x xs ihxs =>
      cases ys with
      | nil => simp [equalItems]
      | cons y ys =>
          rw [equalItems, Bool.and_eq_true, ih x List.mem_cons_self,
            ihxs fun z hz => ih z (List.mem_cons_of_mem _ hz), List.cons.injEq,
            List.forall_mem_cons]
          exact and_and_and_comm

/-- **The equality of the language** is equality of plain data. -/
theorem equal_eq_true_iff {a b : Value} : a.equal b = true ↔ a = b ∧ a.AllLeaves IsDatum := by
  induction a using Value.induct generalizing b with
  | list items ih =>
      cases b with
      | list items' =>
          rw [equal, equalItems_eq_true_iff fun x hx y => ih x hx, list.injEq, allLeaves_list]
      | nil | bool _ | int _ | str _ | sym _ | kw _ | builtin _ | closure _ _ _ | foreign _ =>
          simp [equal]
  | nil | bool _ | int _ | str _ | sym _ | kw _ | builtin _ | closure _ _ _ | foreign _ =>
      cases b <;> simp [equal, allLeaves_leaf, IsDatum]

lemma equal_self_iff {a : Value} : a.equal a = true ↔ a.AllLeaves IsDatum :=
  equal_eq_true_iff.trans (and_iff_right rfl)

lemma equal_comm (a b : Value) : a.equal b = b.equal a := by
  refine Bool.eq_iff_iff.mpr ?_
  rw [equal_eq_true_iff, equal_eq_true_iff]
  constructor
  all_goals
    rintro ⟨rfl, h⟩
    exact ⟨rfl, h⟩

lemma sameKeys_self {items : List Value} (h : ∀ v ∈ items, v.sameKey v = true) :
    sameKeys items items = true := by
  induction items with
  | nil => rfl
  | cons v rest ih =>
      rw [sameKeys, h v List.mem_cons_self, ih fun w hw => h w (List.mem_cons_of_mem _ hw)]
      rfl

/-- Plain data are the same key as themselves. -/
lemma sameKey_self {a : Value} (h : a.AllLeaves IsDatum) : a.sameKey a = true := by
  induction h with
  | @leaf v hv h =>
      cases v with
      | list items => exact absurd rfl (hv items)
      | nil | bool _ | int _ | str _ => simp [sameKey, quantity?, Quantity.same]
      | sym _ | kw _ | builtin _ | closure _ _ _ | foreign _ => exact h.elim
  | list _ ih =>
      rw [sameKey]
      exact sameKeys_self ih

/-! ### Texts of data -/

/-- The leaves of plain data that are read back: strings whose quotes and backslashes are escaped,
and integers within the digit limit. -/
def IsWritable : Value → Prop
  | nil | bool _ => True
  | int n => (Nat.toDigits 10 n.natAbs).length ≤ Text.digitLimit
  | str text => Escaped text.toList
  | _ => False

lemma IsWritable.isDatum {v : Value} (h : v.IsWritable) : v.IsDatum := by
  cases v with
  | nil | bool _ | int _ | str _ => trivial
  | list _ | sym _ | kw _ | builtin _ | closure _ _ _ | foreign _ => exact h.elim

lemma IsWritable.isFormLeaf {v : Value} (h : v.IsWritable) : v.IsFormLeaf := by
  cases v with
  | nil | bool _ => trivial
  | int n => exact (Text.decimalWithin?_isSome_iff (by decide) n).mpr h
  | str text => exact h
  | list _ | sym _ | kw _ | builtin _ | closure _ _ _ | foreign _ => exact h.elim

/-- **Data that are read back** have texts, and are equal exactly when these are. -/
theorem equal_iff_print_eq {a b : Value} (ha : a.AllLeaves IsWritable)
    (hb : b.AllLeaves IsWritable) :
    ∃ s t, a.print = .ok s ∧ b.print = .ok t ∧ (a.equal b = true ↔ s = t) := by
  have hreadable {v : Value} (h : v.AllLeaves IsWritable) : v.Readable :=
    h.mono fun _ => IsWritable.isFormLeaf
  obtain ⟨s, hs, -⟩ := readAll_print (hreadable ha)
  obtain ⟨t, ht, -⟩ := readAll_print (hreadable hb)
  refine ⟨s, t, hs, ht, ?_⟩
  rw [equal_eq_true_iff, and_iff_left (ha.mono fun _ => IsWritable.isDatum)]
  constructor
  · rintro rfl
    exact Except.ok.inj (hs.symm.trans ht)
  · rintro rfl
    exact (hreadable ha).eq_of_print_eq (hreadable hb) (hs.trans ht.symm)

end Value

/-- **Sameness of plain data.** Two values are equal in the language exactly when they are the same
tree of lists over nil, booleans, integers and strings. So this equality is symmetric and
transitive; a value is equal to itself exactly when no part of it is a symbol, a keyword, a
function or a value of the host; values with a boolean and an integer at one place are unequal;
equal values are the same key; and trees whose strings are escaped and whose integers are within
the digit limit have texts, which are the same exactly when the trees are equal. -/
theorem equality_is_sameness_of_plain_data :
    (∀ a b : Value, a.equal b = true ↔ a = b ∧ a.AllLeaves Value.IsDatum) ∧
    (∀ a b : Value, a.equal b = b.equal a) ∧
    (∀ a b c : Value, a.equal b = true → b.equal c = true → a.equal c = true) ∧
    (∀ a : Value, a.equal a = true ↔
      ∀ place v, a.part? place = some v → ¬ v.IsIncomparable) ∧
    (∀ (a b : Value) place x n, a.part? place = some (.bool x) → b.part? place = some (.int n) →
      a.equal b = false ∧ b.equal a = false) ∧
    (∀ a b : Value, a.equal b = true → a.sameKey b = true) ∧
    ∀ a b : Value, a.AllLeaves Value.IsWritable → b.AllLeaves Value.IsWritable →
      ∃ s t, a.print = .ok s ∧ b.print = .ok t ∧ (a.equal b = true ↔ s = t) := by
  refine ⟨fun a b => Value.equal_eq_true_iff, Value.equal_comm, fun a b c hab hbc => ?_,
    fun a => Value.equal_self_iff.trans Value.allLeaves_isDatum_iff,
    fun a b place x n hx hn => ?_, fun a b hab => ?_, fun a b => Value.equal_iff_print_eq⟩
  · obtain ⟨rfl, -⟩ := Value.equal_eq_true_iff.mp hab
    exact hbc
  · have hne : ¬ a.equal b = true := by
      intro hab
      obtain ⟨rfl, -⟩ := Value.equal_eq_true_iff.mp hab
      nomatch Option.some.inj (hx.symm.trans hn)
    rw [← Value.equal_comm a b]
    exact ⟨Bool.eq_false_iff.mpr hne, Bool.eq_false_iff.mpr hne⟩
  · obtain ⟨rfl, hdata⟩ := Value.equal_eq_true_iff.mp hab
    exact Value.sameKey_self hdata

/-- Two lists that differ in a boolean and an integer inside are unequal, and so are their
texts. -/
theorem nested_truth_value_is_no_integer :
    let a : Value := .list [.str "a\\\"", .list [.bool true, .nil]]
    let b : Value := .list [.str "a\\\"", .list [.int 1, .nil]]
    a.part? [1, 0] = some (.bool true) ∧ b.part? [1, 0] = some (.int 1) ∧ a.equal b = false ∧
      ∃ s t, a.print = .ok s ∧ b.print = .ok t ∧ s ≠ t := by
  intro a b
  obtain ⟨-, -, -, -, hbool, -, hprint⟩ := equality_is_sameness_of_plain_data
  have hne := (hbool a b [1, 0] true 1 rfl rfl).1
  have hescaped : Escaped "a\\\"".toList := .char (by decide) (by decide) (.pair '"' .nil)
  have hstr : (Value.str "a\\\"").AllLeaves Value.IsWritable := .leaf nofun hescaped
  have hnil : Value.nil.AllLeaves Value.IsWritable := .leaf nofun trivial
  have htree {v : Value} (hv : v.AllLeaves Value.IsWritable) :
      (Value.list [.str "a\\\"", .list [v, .nil]]).AllLeaves Value.IsWritable := by
    simp only [Value.allLeaves_list, List.forall_mem_cons]
    exact ⟨hstr, ⟨hv, hnil, nofun⟩, nofun⟩
  have hdigits : (Nat.toDigits 10 (1 : ℤ).natAbs).length ≤ Text.digitLimit := by decide
  obtain ⟨s, t, hs, ht, hiff⟩ :=
    hprint a b (htree (.leaf nofun trivial)) (htree (.leaf nofun hdigits))
  exact ⟨rfl, rfl, hne, s, t, hs, ht, fun heq => Bool.eq_false_iff.mp hne (hiff.mpr heq)⟩

end TinyLisp
