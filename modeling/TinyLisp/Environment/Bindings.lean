/-
Bindings of one environment.

An environment binds names to values. It remembers the order in which names were
first bound, and binding a name again keeps its place.

* `Bindings`: names with their values, in the order of first binding.
* `Bindings.get?`, `Bindings.set`: the value of a name, and binding a name.
* `get?_set`, `names_set`: what binding a name does to the values and the order.
-/
import TinyLisp.Value.Basic

namespace TinyLisp

/-- Names with their values, in the order of first binding. -/
abbrev Bindings := List (String × Value)

namespace Bindings

/-- The value bound to a name. -/
def get? : Bindings → String → Option Value
  | [], _ => none
  | (x, v) :: rest, name => if x = name then some v else get? rest name

/-- Binds a name, in its place when it is already bound and at the end otherwise. -/
def set : Bindings → String → Value → Bindings
  | [], name, value => [(name, value)]
  | (x, v) :: rest, name, value =>
    if x = name then (name, value) :: rest else (x, v) :: set rest name value

/-- The names bound, in the order of first binding. -/
def names (b : Bindings) : List String :=
  b.map Prod.fst

/-- Binding a name changes the value of that name only. -/
theorem get?_set (b : Bindings) (name other : String) (value : Value) :
    (b.set name value).get? other = if name = other then some value else b.get? other := by
  induction b with
  | nil => rfl
  | cons entry rest ih =>
    obtain ⟨x, v⟩ := entry
    by_cases hx : x = name
    · subst hx
      by_cases ho : x = other <;> simp [set, get?, ho]
    · by_cases ho : x = other
      · subst ho
        simp [set, get?, hx, Ne.symm hx]
      · simp [set, get?, hx, ho, ih]

/-- A new name comes last and a bound name keeps its place. -/
theorem names_set (b : Bindings) (name : String) (value : Value) :
    (b.set name value).names = if name ∈ b.names then b.names else b.names ++ [name] := by
  induction b with
  | nil => rfl
  | cons entry rest ih =>
    obtain ⟨x, v⟩ := entry
    by_cases hx : x = name
    · subst hx
      simp [set, names]
    · by_cases hm : name ∈ rest.map Prod.fst <;> simp_all [set, names, Ne.symm hx]

/-- A name has a value exactly when it is bound. -/
theorem get?_isSome_iff (b : Bindings) (name : String) : (b.get? name).isSome ↔ name ∈ b.names := by
  induction b with
  | nil => simp [get?, names]
  | cons entry rest ih =>
    obtain ⟨x, v⟩ := entry
    by_cases hx : x = name
    · simp [get?, names, hx]
    · simp_all [get?, names, Ne.symm hx]

end Bindings

end TinyLisp
