/-
Mirrored runs.

Two stores can differ in ways that no program notices: in the numbers of their
environments, and in bindings that nothing refers to. A mirror is such a way to
differ. It renumbers environments and hides some names, and it says which stores
are mirrored to which; what it has to know of them is the meaning of the names
that are not hidden, and that a new environment and a binding made on both sides
leave them mirrored. Then whole runs are mirrored: a job that refers to no hidden
name, renumbered and run on a mirrored store, comes to the same fault or to the
same value renumbered, and leaves mirrored stores.

* `Mirror`: the laws of a mirror.
* `Mirror.Machines`, `Mirror.Outcomes`: mirrored machines and outcomes.
* `Mirror.simulation`: a mirror as a simulation.
* `Evaluates.mirror`: runs from mirrored machines are mirrored.
-/
import TinyLisp.Proofs.Simulation

namespace TinyLisp

/-! ### Mirrors -/

/-- A way for stores to differ that no program notices which refers to no hidden name. -/
structure Mirror where
  /-- The number of an environment on the other side. -/
  number : ℕ → ℕ
  /-- The names that mean nothing in particular. -/
  hidden : List String
  /-- The stores that are mirrored to each other. -/
  Related : Store → Store → Prop
  size_eq {s s' : Store} (h : Related s s') : s'.size = number s.size
  get?_eq {s s' : Store} (h : Related s s') (env : ℕ) {name : String} (hname : name ∉ hidden) :
    s'.get? (number env) name = (s.get? env name).map (Value.renumber number)
  /-- No meaning of a name refers to a hidden name, but for the meaning of a hidden name. -/
  disjoint {s s' : Store} (h : Related s s') {env : ℕ} {name : String} {v : Value}
    (hname : name ∉ hidden) (hv : s.get? env name = some v) :
    v.closureReferences.Disjoint hidden
  create {s s' : Store} (h : Related s s') (env : ℕ) :
    Related (s.create (some env)).2 (s'.create (some (number env))).2
  set {s s' : Store} (h : Related s s') (env : ℕ) (name : String) {v : Value}
    (hv : v.closureReferences.Disjoint hidden) :
    Related (s.set env name v) (s'.set (number env) name (v.renumber number))

namespace Mirror

/-- Machines on mirrored stores, at the same depth of call frames. -/
structure Machines (M : Mirror) (m m' : Machine) : Prop where
  related : M.Related m.store m'.store
  depth_eq : m'.depth = m.depth

/-- The same fault, or the same value renumbered, on mirrored machines. -/
inductive Outcomes (M : Mirror) : Outcome → Outcome → Prop where
  | ok {v m m'} (hv : v.closureReferences.Disjoint M.hidden) (h : M.Machines m m') :
    Outcomes M (.ok v m) (.ok (v.renumber M.number) m')
  | error {f m m'} (h : M.Machines m m') : Outcomes M (.error f m) (.error f m')

variable {M : Mirror} {r r' : Outcome}

lemma Outcomes.related (h : M.Outcomes r r') : M.Related r.machine.store r'.machine.store := by
  cases h with
  | ok _ hm | error hm => exact hm.related

lemma Outcomes.result_eq (h : M.Outcomes r r') :
    r'.result = r.result.map (Value.renumber M.number) := by
  cases h with
  | ok _ hm | error hm => rfl

/-- A mirror is a simulation of the runs that refer to no hidden name. -/
def simulation (M : Mirror) : Simulation :=
  .ofNumbering M.number (.ofReferences M.hidden) M.Related (fun _ _ => trivial) M.size_eq
    (fun h _ env _ hname => M.get?_eq h env (List.disjoint_left.mp hname List.mem_cons_self))
    (fun h _ _ _ _ hname => M.disjoint h (List.disjoint_left.mp hname List.mem_cons_self))
    M.create (fun h env _ name _ hv => M.set h env name hv)

/-- Outcomes that correspond by the simulation, at the same depth, are mirrored. -/
lemma outcomes_of_simulation {limit : Int} (h : M.simulation.Outcomes limit limit r r')
    (hdepth : r'.machine.depth = r.machine.depth) : M.Outcomes r r' := by
  cases h with
  | @ok v _ _ hv hm =>
      rw [v.translate_eq_renumber fun _ => rfl]
      exact .ok hv ⟨hm.related, hdepth⟩
  | error hf hm =>
      have hsame := (hf.eq_or_refused fun _ => rfl).elim id fun ⟨h, h'⟩ => h'.trans h.symm
      rw [hsame]
      exact .error ⟨hm.related, hdepth⟩

end Mirror

/-- **Mirrored runs.** A job that refers to no hidden name, renumbered and run on a mirrored
machine, has a mirrored outcome. -/
theorem Evaluates.mirror {M : Mirror} {limit : Int} {job : Job} {m : Machine} {r : Outcome}
    (h : Evaluates limit job m r) (hjob : job.references.Disjoint M.hidden) :
    ∀ {m'}, M.Machines m m' →
      ∃ r', Evaluates limit (job.renumber M.number) m' r' ∧ M.Outcomes r r' := by
  intro m' hm
  have hmachines : M.simulation.Machines limit limit m m' := ⟨hm.related, by rw [hm.depth_eq]⟩
  obtain ⟨r', hrun, hout⟩ := h.simulate trivial hjob (.refl job.room r.result) hmachines
  rw [job.translate_eq_renumber fun _ => rfl] at hrun
  exact ⟨r', hrun,
    Mirror.outcomes_of_simulation hout (hrun.depth_eq.trans (hm.depth_eq.trans h.depth_eq.symm))⟩

end TinyLisp
