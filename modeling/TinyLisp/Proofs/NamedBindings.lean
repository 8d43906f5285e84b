/-
Many names at once.

A host gives names by values: a symbol or a string is a name, and nothing else
is. Binding many names is binding them one by one, up to the first value that is
none.

* `Value.name?`, `namedEntries`: the name that a value is, and the entries of a
  mapping up to the first key that is none.
* `Store.setNamed_of_names`, `Store.setNamed_of_not_name`: binding the names of
  some entries.
* `Store.mapping_of_pairwise`: entries with different keys are a mapping.
* `Store.bindNamedArguments_of_names`: binding parameters that are names.
-/
import TinyLisp.Environment.Naming
import TinyLisp.Proofs.Stores

namespace TinyLisp

/-! ### Names given as values -/

/-- The name that a value is, if it is a symbol or a string. -/
def Value.name? : Value → Option String
  | sym name => some name
  | str name => some name
  | _ => none

lemma Value.asName_eq (key : Value) :
    key.asName = key.name?.elim (.error (Fault.showing key.inspect .notAName)) .ok := by
  cases key <;> rfl

/-- The entries of a mapping up to the first whose key is no name. -/
def namedEntries : List (Value × Value) → List (String × Value)
  | [] => []
  | (key, value) :: rest =>
    match key.name? with
    | some name => (name, value) :: namedEntries rest
    | none => []

namespace Store

variable {s : Store} {env : ℕ} {entries before after : List (Value × Value)} {key value : Value}
  {params args : List Value} {names : List String}

/-- Names given as values are bound one by one up to the first that is none. -/
lemma setNamed_snd (s : Store) (env : ℕ) (entries : List (Value × Value)) :
    (s.setNamed env entries).2 = s.setAll env (namedEntries entries) := by
  induction entries generalizing s with
  | nil => rfl
  | cons entry rest ih =>
      obtain ⟨key, value⟩ := entry
      rw [setNamed, namedEntries, Value.asName_eq]
      cases key.name? with
      | some name => exact ih _
      | none => rfl

/-- Binding names succeeds when all keys are names. -/
lemma setNamed_of_names (h : ∀ entry ∈ entries, entry.1.name?.isSome) :
    s.setNamed env entries = (.ok (), s.setAll env (namedEntries entries)) := by
  induction entries generalizing s with
  | nil => rfl
  | cons entry rest ih =>
      obtain ⟨key, value⟩ := entry
      obtain ⟨name, hname⟩ := Option.isSome_iff_exists.mp (h _ List.mem_cons_self)
      rw [setNamed, namedEntries, Value.asName_eq, hname]
      exact ih fun other hother => h other (List.mem_cons_of_mem _ hother)

/-- Binding names fails at the first key that is none. -/
lemma setNamed_of_not_name (h : ∀ entry ∈ before, entry.1.name?.isSome) (hkey : key.name? = none) :
    s.setNamed env (before ++ (key, value) :: after) =
      (.error (Fault.showing key.inspect .notAName), s.setAll env (namedEntries before)) := by
  induction before generalizing s with
  | nil => rw [List.nil_append, setNamed, Value.asName_eq, hkey]; rfl
  | cons entry rest ih =>
      obtain ⟨first, value⟩ := entry
      obtain ⟨name, hname⟩ := Option.isSome_iff_exists.mp (h _ List.mem_cons_self)
      rw [List.cons_append, setNamed, namedEntries, Value.asName_eq, hname]
      exact ih fun other hother => h other (List.mem_cons_of_mem _ hother)

/-! ### Mappings -/

lemma mergeEntry_of_new {m : List (Value × Value)} (h : ∀ entry ∈ m, ¬ entry.1.sameKey key) :
    mergeEntry key value m = m ++ [(key, value)] := by
  induction m with
  | nil => rfl
  | cons entry rest ih =>
      rw [mergeEntry, if_neg (h _ List.mem_cons_self),
        ih fun other hother => h other (List.mem_cons_of_mem _ hother)]
      rfl

/-- Entries with keys of which none is the same as a later one are a mapping as they are. -/
lemma mapping_of_pairwise (h : entries.Pairwise fun a b => ¬ a.1.sameKey b.1) :
    mapping entries = entries := by
  suffices hfrom : ∀ m : List (Value × Value),
      (m ++ entries).Pairwise (fun a b => ¬ a.1.sameKey b.1) →
        entries.foldl (fun m entry => mergeEntry entry.1 entry.2 m) m = m ++ entries from
    hfrom [] h
  clear h
  induction entries with
  | nil => simp
  | cons entry rest ih =>
      obtain ⟨key, value⟩ := entry
      intro m h
      have hnew : ∀ other ∈ m, ¬ other.1.sameKey key := fun other hother =>
        (List.pairwise_append.mp h).2.2 other hother _ List.mem_cons_self
      simp only [List.foldl_cons, mergeEntry_of_new hnew]
      simpa using ih (m ++ [(key, value)]) (by simpa using h)

/-! ### Parameters given as values -/

lemma mapM_asName_of_names (h : params.mapM Value.name? = some names) :
    params.mapM Value.asName = .ok names ∧ names.length = params.length := by
  induction params generalizing names with
  | nil =>
      obtain rfl := Option.some.inj h
      exact ⟨rfl, rfl⟩
  | cons key rest ih =>
      simp only [List.mapM_cons, Option.pure_def, Option.bind_eq_bind, Option.bind_eq_some_iff,
        Option.some.injEq] at h
      obtain ⟨name, hname, others, hothers, rfl⟩ := h
      obtain ⟨hrest, hlen⟩ := ih hothers
      rw [List.mapM_cons, Value.asName_eq, hname, hrest]
      exact ⟨rfl, congrArg Nat.succ hlen⟩

lemma mapM_asName_of_not_names (h : params.mapM Value.name? = none) :
    ∃ f, params.mapM Value.asName = .error f := by
  induction params with
  | nil => simp at h
  | cons key rest ih =>
      rw [List.mapM_cons, Value.asName_eq]
      cases hname : key.name? with
      | none => exact ⟨_, rfl⟩
      | some name =>
          cases hrest : rest.mapM Value.name? with
          | some names => simp [List.mapM_cons, hname, hrest] at h
          | none =>
              obtain ⟨f, hf⟩ := ih hrest
              exact ⟨f, by rw [hf]; rfl⟩

lemma bindNamedArguments_of_names (s : Store) (outer : ℕ) (hlen : params.length = args.length)
    (h : params.mapM Value.name? = some names) :
    s.bindNamedArguments outer params args = .ok (s.createWith outer (names.zip args)) := by
  obtain ⟨hnames, hlength⟩ := mapM_asName_of_names h
  rw [bindNamedArguments, if_pos hlen, hnames]
  exact if_pos (hlength.trans hlen)

lemma bindNamedArguments_of_not_names (s : Store) (outer : ℕ) (hlen : params.length = args.length)
    (h : params.mapM Value.name? = none) :
    ∃ f, s.bindNamedArguments outer params args = .error f := by
  obtain ⟨f, hf⟩ := mapM_asName_of_not_names h
  refine ⟨f, ?_⟩
  rw [bindNamedArguments, if_pos hlen, hf]
  rfl

lemma bindNamedArguments_of_length_ne (s : Store) (outer : ℕ)
    (hlen : params.length ≠ args.length) :
    s.bindNamedArguments outer params args =
      .error (.closureArity params.length args.length) := if_neg hlen

end Store

end TinyLisp
