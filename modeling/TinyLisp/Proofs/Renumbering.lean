/-
Values with their environments renumbered.

A value knows an environment only by the number that a closure captured. Nothing
that a program does with a value, and nothing that is shown of it, depends on
those numbers: a value with its environments renumbered is printed, compared,
tested and taken apart as the value itself. The numbering may be any function,
so different environments may even get the same number.

* `Value.renumber`, `Job.renumber`: a value and a job with their environments
  renumbered.
* `renumber_id`, `renumber_eq_self`: numberings that change nothing.
* `keepsData_renumber`: a renumbered value is the same data.
* `print_renumber`, `inspect_renumber`, `Room.formFault_renumber`: what is shown of a
  value, and of a part of a form by its fault.
-/
import TinyLisp.Proofs.DataMaps

namespace TinyLisp

/-! ### Renumbering -/

namespace Value

mutual

/-- The value with its environments renumbered: those that its closures captured, and those in the
bodies of its closures. -/
def renumber (f : ℕ → ℕ) : Value → Value
  | list items => list (renumberAll f items)
  | closure params body env => closure params (renumber f body) (f env)
  | v => v

/-- The values with their environments renumbered. -/
def renumberAll (f : ℕ → ℕ) : List Value → List Value
  | [] => []
  | v :: rest => renumber f v :: renumberAll f rest

end

variable {f : ℕ → ℕ}

lemma renumberAll_eq_map (items : List Value) :
    renumberAll f items = items.map (renumber f) := by
  induction items with
  | nil => rfl
  | cons v rest ih => rw [renumberAll, ih, List.map_cons]

@[simp] lemma renumber_list (items : List Value) :
    (list items).renumber f = list (items.map (renumber f)) := by
  rw [renumber, renumberAll_eq_map]

@[simp] lemma renumber_closure (params : List String) (body : Value) (env : ℕ) :
    (closure params body env).renumber f = closure params (body.renumber f) (f env) := by
  rw [renumber]

@[simp] lemma renumber_int (n : ℤ) : (int n).renumber f = int n := rfl

@[simp] lemma renumber_sym (name : String) : (sym name).renumber f = sym name := rfl

/-- A numbering that keeps the environments of a value keeps the value. -/
lemma renumber_eq_self {n : ℕ} (hf : ∀ k < n, f k = k) {v : Value} (h : v.CapturesBelow n) :
    v.renumber f = v := by
  induction v using Value.induct with
  | list items ih =>
      rw [renumber_list, List.map_congr_left fun v hv => ih v hv (capturesBelow_list.mp h v hv),
        List.map_id']
  | closure params body env ih =>
      rw [CapturesBelow] at h
      rw [renumber_closure, ih h.2, hf env h.1]
  | nil | bool _ | int _ | str _ | sym _ | kw _ | builtin _ | foreign _ => rfl

@[simp] lemma renumber_id (v : Value) : v.renumber id = v := by
  induction v using Value.induct with
  | list items ih => rw [renumber_list, List.map_congr_left ih, List.map_id']
  | closure params body env ih => rw [renumber_closure, ih, id]
  | nil | bool _ | int _ | str _ | sym _ | kw _ | builtin _ | foreign _ => rfl

/-- Only what is inside of closures is renumbered. -/
lemma keepsData_renumber (f : ℕ → ℕ) : KeepsData (renumber f) where
  list := renumber_list
  closure params body env := ⟨_, _, _, renumber_closure params body env⟩
  leaf {v} hv := by cases v <;> first | rfl | nomatch hv

/-! ### What is shown of a value -/

@[simp] theorem print_renumber (v : Value) : (v.renumber f).print = v.print :=
  (keepsData_renumber f).print v

lemma inspectRestOnto_map {g : Value → Value} {items : List Value}
    (h : ∀ v ∈ items, ∀ done, inspectOnto done (g v) = inspectOnto done v) (done : String) :
    inspectRestOnto done (items.map g) = inspectRestOnto done items := by
  induction items generalizing done with
  | nil => rfl
  | cons v rest ih =>
      have hrest := ih fun w hw => h w (List.mem_cons_of_mem _ hw)
      simp only [List.map_cons, inspectRestOnto, h v List.mem_cons_self, hrest]

lemma inspectOnto_renumber (v : Value) :
    ∀ done, inspectOnto done (v.renumber f) = inspectOnto done v := by
  induction v using Value.induct with
  | list items ih =>
      intro done
      have hrest : ∀ done, inspectRestOnto done (items.tail.map (renumber f)) =
          inspectRestOnto done items.tail :=
        inspectRestOnto_map fun w hw => ih w (List.mem_of_mem_tail hw)
      match items with
      | [] => rfl
      | [v] =>
          simp only [renumber_list, List.map_cons, List.map_nil, inspectOnto,
            ih v List.mem_cons_self]
      | v :: w :: rest =>
          simp only [List.tail_cons, List.map_cons] at hrest
          simp only [renumber_list, List.map_cons, inspectOnto, hrest, ih v List.mem_cons_self]
  | closure params body env => intro done; rw [renumber_closure, inspectOnto, inspectOnto]
  | nil | bool _ | int _ | str _ | sym _ | kw _ | builtin _ | foreign _ => exact fun _ => rfl

@[simp] theorem inspect_renumber (v : Value) : (v.renumber f).inspect = v.inspect :=
  inspectOnto_renumber v ""

@[simp] lemma inspectLevels_renumber (v : Value) :
    (v.renumber f).inspectLevels = v.inspectLevels :=
  (keepsData_renumber f).inspectLevels v

end Value

variable {f : ℕ → ℕ}

@[simp] lemma Room.formFault_renumber (room : Room) (part : Value) (fault : String → FormFault) :
    room.formFault (part.renumber f) fault = room.formFault part fault := by
  rw [Room.formFault, Room.formFault, Value.inspect_renumber,
    Value.inspectLevels_renumber]

/-! ### Jobs -/

/-- The job with its environments renumbered. -/
def Job.renumber (f : ℕ → ℕ) : Job → Job
  | .expr room env e => .expr room (f env) (e.renumber f)
  | .form room env which parts => .form room (f env) which (parts.map (Value.renumber f))
  | .each room env es => .each room (f env) (es.map (Value.renumber f))
  | .scope room env bindings body =>
    .scope room (f env) (bindings.map (Value.renumber f)) (body.renumber f)
  | .apply room v args => .apply room (v.renumber f) (args.map (Value.renumber f))

@[simp] lemma Job.renumber_id (job : Job) : job.renumber id = job := by
  have hid : Value.renumber id = id := funext Value.renumber_id
  cases job <;> simp [Job.renumber, hid]

end TinyLisp
