/-
Maps of values that keep data.

A program can tell a closure from other values, but it cannot look inside: neither
its parameters nor its body nor its environment are data. So a map of values that
goes through lists item by item, takes closures to closures and keeps every other
value changes nothing that a program prints, compares, tests or computes with.

* `Value.KeepsData`: maps of values that change closures only.
* `KeepsData.print`, `KeepsData.equal`: what is printed, and the equality of the
  language.
* `KeepsData.levelsWhile`, `KeepsData.equalLevels`: how deep showing and comparing
  go.
* `KeepsData.apply` (**primitives**): what a primitive makes of mapped arguments.
-/
import TinyLisp.Proofs.SessionValues
import TinyLisp.Proofs.Termination

namespace TinyLisp

namespace Value

/-- A value is a leaf when it is neither a list nor a closure. -/
def isLeaf : Value → Bool
  | list _ => false
  | closure _ _ _ => false
  | _ => true

/-- A map of values that keeps everything but what is inside of closures. -/
structure KeepsData (φ : Value → Value) : Prop where
  list (items : List Value) : φ (list items) = .list (items.map φ)
  closure (params : List String) (body : Value) (env : ℕ) :
    ∃ params' body' env', φ (closure params body env) = .closure params' body' env'
  leaf {v : Value} (hv : v.isLeaf = true) : φ v = v

/-! ### Items of lists -/

lemma itemLevelsWhile_map {passes : Value → Bool} {φ : Value → Value} {items : List Value}
    (h : ∀ v ∈ items, levelsWhile passes (φ v) = levelsWhile passes v) :
    itemLevelsWhile passes (items.map φ) = itemLevelsWhile passes items := by
  induction items with
  | nil => rfl
  | cons v rest ih =>
      rw [List.map_cons, itemLevelsWhile, itemLevelsWhile, h v List.mem_cons_self,
        ih fun w hw => h w (List.mem_cons_of_mem _ hw)]

lemma equalItems_map {φ : Value → Value} {xs ys : List Value}
    (h : ∀ v ∈ xs, ∀ w, equal (φ v) (φ w) = equal v w) :
    equalItems (xs.map φ) (ys.map φ) = equalItems xs ys := by
  induction xs generalizing ys with
  | nil => cases ys <;> rfl
  | cons v rest ih =>
      cases ys with
      | nil => rfl
      | cons w others =>
          rw [List.map_cons, List.map_cons, equalItems, equalItems, h v List.mem_cons_self,
            ih fun u hu => h u (List.mem_cons_of_mem _ hu)]

lemma equalItemsLevels_map {φ : Value → Value} {xs ys : List Value}
    (h : ∀ v ∈ xs, ∀ w, equalLevels (φ v) (φ w) = equalLevels v w) :
    equalItemsLevels (xs.map φ) (ys.map φ) = equalItemsLevels xs ys := by
  induction xs generalizing ys with
  | nil => cases ys <;> rfl
  | cons v rest ih =>
      cases ys with
      | nil => rfl
      | cons w others =>
          rw [List.map_cons, List.map_cons, equalItemsLevels, equalItemsLevels,
            h v List.mem_cons_self, ih fun u hu => h u (List.mem_cons_of_mem _ hu)]

/-- A list and a leaf are told apart at once. -/
lemma equal_list_of_isLeaf (items : List Value) {w : Value} (hw : w.isLeaf = true) :
    (list items).equal w = false := by
  cases w <;> first | rfl | nomatch hw

lemma equalLevels_list_of_isLeaf (items : List Value) {w : Value} (hw : w.isLeaf = true) :
    (list items).equalLevels w = (0, false) := by
  cases w <;> first | rfl | nomatch hw

namespace KeepsData

variable {φ : Value → Value}

/-- A value is a leaf, which is kept, or a list or a closure, which stays one. -/
lemma cases (h : KeepsData φ) (v : Value) :
    (v.isLeaf = true ∧ φ v = v) ∨
    (∃ items, v = .list items ∧ φ v = .list (items.map φ)) ∨
    ∃ params body env params' body' env', v = .closure params body env ∧
      φ v = .closure params' body' env' := by
  cases v with
  | list items => exact .inr (.inl ⟨items, rfl, h.list items⟩)
  | closure params body env =>
      obtain ⟨params', body', env', hclosure⟩ := h.closure params body env
      exact .inr (.inr ⟨_, _, _, _, _, _, rfl, hclosure⟩)
  | _ => exact .inl ⟨rfl, h.leaf rfl⟩

/-! ### Printing -/

lemma printChars (h : KeepsData φ) (v : Value) :
    Value.printChars (φ v) = Value.printChars v := by
  induction v using Value.induct with
  | list items ih => rw [h.list, Value.printChars, Value.printChars, printItems_map ih]
  | closure params body env =>
      obtain ⟨params', body', env', heq⟩ := h.closure params body env
      rw [heq, Value.printChars, Value.printChars]
  | nil | bool _ | int _ | str _ | sym _ | kw _ | builtin _ | foreign _ => rw [h.leaf rfl]

theorem print (h : KeepsData φ) (v : Value) : (φ v).print = v.print := by
  rw [print_eq, print_eq, h.printChars]

/-- A walk that does not look inside of closures goes as deep. -/
lemma levelsWhile (h : KeepsData φ) {passes : Value → Bool}
    (hpasses : ∀ params body env params' body' env',
      passes (.closure params' body' env') = passes (.closure params body env)) (v : Value) :
    Value.levelsWhile passes (φ v) = Value.levelsWhile passes v := by
  induction v using Value.induct with
  | list items ih => rw [h.list, Value.levelsWhile, Value.levelsWhile, itemLevelsWhile_map ih]
  | closure params body env =>
      obtain ⟨params', body', env', heq⟩ := h.closure params body env
      rw [heq]
      exact congrArg (Prod.mk 0) (hpasses params body env params' body' env')
  | nil | bool _ | int _ | str _ | sym _ | kw _ | builtin _ | foreign _ => rw [h.leaf rfl]

lemma printLevels (h : KeepsData φ) (v : Value) : (φ v).printLevels = v.printLevels :=
  h.levelsWhile (fun _ _ _ _ _ _ => rfl) v

lemma inspectLevels (h : KeepsData φ) (v : Value) : (φ v).inspectLevels = v.inspectLevels :=
  h.levelsWhile (fun _ _ _ _ _ _ => rfl) v

/-! ### Comparing -/

theorem equal (h : KeepsData φ) (v w : Value) : (φ v).equal (φ w) = v.equal w := by
  induction v using Value.induct generalizing w with
  | list items ih =>
      rw [h.list]
      rcases h.cases w with ⟨hleaf, hw⟩ | ⟨others, rfl, hw⟩ | ⟨_, _, _, _, _, _, rfl, hw⟩
      · rw [hw, equal_list_of_isLeaf _ hleaf, equal_list_of_isLeaf _ hleaf]
      · rw [hw, Value.equal, Value.equal, equalItems_map ih]
      · rw [hw]
        rfl
  | closure params body env =>
      obtain ⟨params', body', env', hclosure⟩ := h.closure params body env
      rw [hclosure, Value.equal, Value.equal] <;> simp
  | nil | bool _ | int _ | str _ | sym _ | kw _ | builtin _ | foreign _ =>
      rcases h.cases w with ⟨-, hw⟩ | ⟨others, rfl, hw⟩ | ⟨_, _, _, _, _, _, rfl, hw⟩
      · rw [hw, h.leaf rfl]
      · rw [hw, h.leaf rfl]
        rfl
      · rw [hw, h.leaf rfl]
        rfl

lemma equalLevels (h : KeepsData φ) (v w : Value) :
    (φ v).equalLevels (φ w) = v.equalLevels w := by
  -- away from two lists no level is gone down, and the two are compared
  induction v using Value.induct generalizing w with
  | list items ih =>
      rw [h.list]
      rcases h.cases w with ⟨hleaf, hw⟩ | ⟨others, rfl, hw⟩ | ⟨_, _, _, _, _, _, rfl, hw⟩
      · rw [hw, equalLevels_list_of_isLeaf _ hleaf, equalLevels_list_of_isLeaf _ hleaf]
      · rw [hw]
        simp only [Value.equalLevels, List.length_map, equalItemsLevels_map ih]
      · rw [hw]
        rfl
  | closure params body env =>
      obtain ⟨params', body', env', hclosure⟩ := h.closure params body env
      have hequal := h.equal (.closure params body env) w
      rw [hclosure] at hequal ⊢
      rw [Value.equalLevels, Value.equalLevels, hequal] <;> simp
  | nil | bool _ | int _ | str _ | sym _ | kw _ | builtin _ | foreign _ =>
      rcases h.cases w with ⟨-, hw⟩ | ⟨others, rfl, hw⟩ | ⟨_, _, _, _, _, _, rfl, hw⟩
      · rw [hw, h.leaf rfl]
      · rw [hw, h.leaf rfl]
        rfl
      · rw [hw, h.leaf rfl]
        rfl

/-! ### Tests -/

lemma isTruthy (h : KeepsData φ) (v : Value) : (φ v).isTruthy = v.isTruthy := by
  rcases h.cases v with ⟨-, hv⟩ | ⟨_, rfl, hv⟩ | ⟨_, _, _, _, _, _, rfl, hv⟩ <;> rw [hv] <;> rfl

lemma isFunction (h : KeepsData φ) (v : Value) : (φ v).isFunction = v.isFunction := by
  rcases h.cases v with ⟨-, hv⟩ | ⟨_, rfl, hv⟩ | ⟨_, _, _, _, _, _, rfl, hv⟩ <;> rw [hv] <;> rfl

lemma getLastD (h : KeepsData φ) (vs : List Value) :
    (vs.map φ).getLastD .nil = φ (vs.getLastD .nil) := by
  rcases List.eq_nil_or_concat' vs with rfl | ⟨init, last, rfl⟩
  · exact (h.leaf rfl).symm
  · rw [List.map_append, List.map_singleton, List.getLastD_concat, List.getLastD_concat]

lemma notCallable (h : KeepsData φ) (room : Room) (v : Value) :
    room.notCallable (φ v) = room.notCallable v := by
  rw [Room.notCallable, Room.notCallable, h.print, h.printLevels]

/-! ### Primitives -/

lemma roomForPrimitive (h : KeepsData φ) (room : Room) (p : Primitive) (args : List Value) :
    TinyLisp.roomForPrimitive room p (args.map φ) = TinyLisp.roomForPrimitive room p args := by
  unfold TinyLisp.roomForPrimitive
  match args with
  | [] | [_] | _ :: _ :: _ :: _ => cases p <;> rfl
  | [a, b] => cases p <;> simp [h.equalLevels]

/-- The integer that a value is. -/
lemma eq_int_iff (h : KeepsData φ) {v : Value} {n : ℤ} : φ v = int n ↔ v = int n := by
  rcases h.cases v with ⟨-, hv⟩ | ⟨_, rfl, hv⟩ | ⟨_, _, _, _, _, _, rfl, hv⟩ <;> simp [hv]

lemma twoIntegers (h : KeepsData φ) (p : Primitive) (args : List Value) :
    p.twoIntegers (args.map φ) = p.twoIntegers args := by
  match args with
  | [] | [_] | _ :: _ :: _ :: _ => simp [Primitive.twoIntegers]
  | [a, b] =>
      by_cases hints : ∃ m n, a = int m ∧ b = int n
      · obtain ⟨m, n, rfl, rfl⟩ := hints
        rw [List.map_cons, List.map_singleton, h.eq_int_iff.mpr rfl, h.eq_int_iff.mpr rfl]
      · rw [List.map_cons, List.map_singleton, Primitive.twoIntegers_of_not_integers hints,
          Primitive.twoIntegers_of_not_integers (by simpa only [h.eq_int_iff])]

lemma countOf (h : KeepsData φ) (v : Value) : Primitive.countOf (φ v) = Primitive.countOf v := by
  rcases h.cases v with ⟨-, hv⟩ | ⟨items, rfl, hv⟩ | ⟨_, _, _, _, _, _, rfl, hv⟩
  · rw [hv]
  · rw [hv, Primitive.countOf, Primitive.countOf, List.length_map]
  · rw [hv]
    rfl

lemma isListValue (h : KeepsData φ) (v : Value) :
    Primitive.isListValue (φ v) = Primitive.isListValue v := by
  rcases h.cases v with ⟨-, hv⟩ | ⟨_, rfl, hv⟩ | ⟨_, _, _, _, _, _, rfl, hv⟩ <;> rw [hv] <;> rfl

lemma isEmptyList (h : KeepsData φ) (v : Value) :
    Primitive.isEmptyList (φ v) = Primitive.isEmptyList v := by
  rcases h.cases v with ⟨-, hv⟩ | ⟨items, rfl, hv⟩ | ⟨_, _, _, _, _, _, rfl, hv⟩
  · rw [hv]
  · rw [hv]
    cases items <;> rfl
  · rw [hv]
    rfl

/-- **What a primitive makes of mapped arguments** is mapped. -/
theorem apply (h : KeepsData φ) (p : Primitive) (args : List Value) :
    p.apply (args.map φ) = (p.apply args).map φ := by
  have hint (n : ℤ) : φ (int n) = int n := h.leaf rfl
  have hbool (b : Bool) : φ (bool b) = bool b := h.leaf rfl
  cases p with
  | add | sub | mul | less | lessEqual | greater | greaterEqual =>
      simp only [Primitive.apply, h.twoIntegers]
      cases Primitive.twoIntegers _ args with
      | error f => rfl
      | ok ab => simp [Except.map, hint, hbool]
  | div =>
      simp only [Primitive.apply, h.twoIntegers]
      cases Primitive.div.twoIntegers args with
      | error f => rfl
      | ok ab =>
          simp only [Except.bind]
          cases Primitive.quotient ab.1 ab.2 <;> simp [Except.map, hint]
  | equal =>
      rcases args with _ | ⟨a, _ | ⟨b, _ | ⟨_, _⟩⟩⟩ <;>
        simp [Primitive.apply, Primitive.twoValues, Except.map, h.equal, hbool]
  | list => simp [Primitive.apply, Except.map, h.list]
  | isList | isEmpty | count =>
      rcases args with _ | ⟨v, _ | ⟨_, _⟩⟩ <;>
        simp [Primitive.apply, Primitive.oneValue, Except.map, h.isListValue, h.isEmptyList,
          h.countOf, hint, hbool]

end KeepsData

end Value

end TinyLisp
