/-
The environments agree with what was written.

A host makes environments, and binds names in them one by one, many at once, or
the parameters of a function to its arguments; an operation may fail, and one
that binds many names may fail half-way. Whatever it does, the environments are
those of the record of its successful writes: a name means what was written last
for it in the nearest environment in which it was ever written, and the display
of an environment lists every written name once, in the order of the first
writes, with the value of the last one.

* `Operation`, `Operation.apply`: what a host can do.
* `Store.Operated`: the environments after some operations.
* `History`, `History.record`: the links and the writes of some operations.
* `History.last?`, `History.names`, `History.entries`, `History.Resolves`: what a
  record says of a name and of an environment.
* `Store.Agrees`: environments and a record say the same.
* `Store.Agrees.apply`, `Store.Operated.agrees`: one operation, and all of them.
* `environments_agree_with_writes` (**the record of writes**).
* `long_integer_lacks_display`: a written integer over the digit limit.
-/
import TinyLisp.Environment.Display
import TinyLisp.Evaluation.Machine
import TinyLisp.Proofs.NamedBindings
import TinyLisp.Proofs.Showing

namespace TinyLisp

/-! ### What a host does -/

/-- An operation of a host on the environments. -/
inductive Operation where
  /-- A new environment, inside another one or for itself. -/
  | create (outer : Option ℕ)
  /-- Binds one name. -/
  | set (env : ℕ) (key value : Value)
  /-- Binds the names of a mapping. -/
  | update (env : ℕ) (entries : List (Value × Value))
  /-- Binds parameters to arguments in a new environment. -/
  | bind (outer : ℕ) (params args : List Value)
  /-- Binds the primitives. -/
  | register (env : ℕ)

namespace Operation

/-- The environment that an operation is about. -/
def env? : Operation → Option ℕ
  | create outer => outer
  | set env _ _ | update env _ | register env => some env
  | bind outer _ _ => some outer

/-- Whether an operation succeeds, and the environments after it. -/
def apply (s : Store) : Operation → Except Fault Unit × Store
  | create outer => (.ok (), (s.create outer).2)
  | set env key value => s.setNamed env [(key, value)]
  | update env entries => s.update env entries
  | bind outer params args =>
    match s.bindNamedArguments outer params args with
    | .ok (_, s) => (.ok (), s)
    | .error f => (.error f, s)
  | register env => (.ok (), s.register env)

end Operation

/-- The environments after some operations, failed ones among them, each on environments that
exist. -/
inductive Store.Operated : List Operation → Store → Prop where
  | nil : Operated [] .empty
  | snoc {ops s op} (h : Operated ops s) (hop : ∀ env ∈ op.env?, env < s.size) :
    Operated (ops ++ [op]) (op.apply s).2

/-! ### The record of the writes -/

/-- A name that was bound in an environment, and the value. -/
structure Write where
  env : ℕ
  name : String
  value : Value

/-- A record of operations: the outer environments in the order of creation, and all successful
writes in order. -/
structure History where
  links : List (Option ℕ)
  writes : List Write

namespace History

/-- A record with a further environment. -/
def link (h : History) (outer : Option ℕ) : History :=
  { h with links := h.links ++ [outer] }

/-- A record with further writes in one environment. -/
def write (h : History) (env : ℕ) (entries : List (String × Value)) : History :=
  { h with writes := h.writes ++ entries.map fun (name, value) => ⟨env, name, value⟩ }

/-- A record with a further operation: the links and the writes that succeed. -/
def record (h : History) : Operation → History
  | .create outer => h.link outer
  | .set env key value => h.write env (namedEntries [(key, value)])
  | .update env entries => h.write env (namedEntries (Store.mapping entries))
  | .bind outer params args =>
    match params.mapM Value.name? with
    | some names =>
      if params.length = args.length then
        (h.link (some outer)).write h.links.length (names.zip args)
      else h
    | none => h
  | .register env => h.write env (Primitive.all.map fun p => (p.name, .builtin p))

/-- The record of some operations. -/
def ofOperations (ops : List Operation) : History :=
  ops.foldl record ⟨[], []⟩

/-- The environment around an environment, if there is one. -/
def outer? (h : History) (env : ℕ) : Option ℕ :=
  h.links[env]?.join

/-- The value of the last write of a name in an environment. -/
def last? (h : History) (env : ℕ) (name : String) : Option Value :=
  (h.writes.filter fun w => w.env = env ∧ w.name = name).getLast?.map Write.value

/-- The names written in an environment, each once, in the order of the first writes. -/
def names (h : History) (env : ℕ) : List String :=
  ((h.writes.filter (·.env = env)).map Write.name).eraseDups

/-- The names written in an environment in that order, each with the value of its last write. -/
def entries (h : History) (env : ℕ) : List (String × Value) :=
  (h.names env).filterMap fun name => (h.last? env name).map (name, ·)

/-- The short display of an environment, when its values are shown as `shown` says. -/
def display (h : History) (env : ℕ) (shown : Value → String) : String :=
  "\x7b" ++ ", ".intercalate ((h.entries env).map fun entry => entry.1 ++ ": " ++ shown entry.2) ++
    "\x7d" ++ if (h.outer? env).isSome then " -> ..." else ""

/-- What a name means in an environment: the value of its last write in the nearest environment in
which it was ever written, or nothing if there is none. -/
inductive Resolves (h : History) (name : String) : ℕ → Option (ℕ × Value) → Prop where
  | own {env v} (hlast : h.last? env name = some v) : Resolves h name env (some (env, v))
  | outwards {env outer found} (hlast : h.last? env name = none)
      (houter : h.outer? env = some outer) (hrest : Resolves h name outer found) :
    Resolves h name env found
  | lost {env} (hlast : h.last? env name = none) (houter : h.outer? env = none) :
    Resolves h name env none

/-- A name means one thing only. -/
lemma Resolves.unique {h : History} {name : String} {env : ℕ} {found found' : Option (ℕ × Value)}
    (h₁ : h.Resolves name env found) (h₂ : h.Resolves name env found') : found' = found := by
  induction h₁ with
  | own hlast => cases h₂ <;> simp_all
  | outwards hlast houter _ ih =>
      cases h₂ with
      | own hlast' => rw [hlast] at hlast'; cases hlast'
      | outwards _ houter' hrest' =>
          obtain rfl := Option.some.inj (houter.symm.trans houter')
          exact ih hrest'
      | lost _ houter' => rw [houter] at houter'; cases houter'
  | lost hlast houter => cases h₂ <;> simp_all

@[simp] lemma outer?_write (h : History) (env : ℕ) (entries : List (String × Value)) (k : ℕ) :
    (h.write env entries).outer? k = h.outer? k := rfl

@[simp] lemma last?_link (h : History) (outer : Option ℕ) (k : ℕ) (name : String) :
    (h.link outer).last? k name = h.last? k name := rfl

@[simp] lemma names_link (h : History) (outer : Option ℕ) (k : ℕ) :
    (h.link outer).names k = h.names k := rfl

lemma outer?_link (h : History) (outer : Option ℕ) (k : ℕ) :
    (h.link outer).outer? k = if k = h.links.length then outer else h.outer? k := by
  rw [outer?, outer?, link]
  split
  · next heq => simp [heq]
  · next hne =>
      rcases Nat.lt_or_gt_of_ne hne with hlt | hgt
      · rw [List.getElem?_append_left hlt]
      · rw [List.getElem?_eq_none hgt.le, List.getElem?_eq_none (by simpa using hgt)]

/-- Writes one after the other. -/
lemma write_cons (h : History) (env : ℕ) (entry : String × Value)
    (rest : List (String × Value)) :
    h.write env (entry :: rest) = (h.write env [entry]).write env rest := by
  simp [write]

lemma last?_write (h : History) (env env' : ℕ) (name name' : String) (v : Value) :
    (h.write env [(name, v)]).last? env' name' =
      if env = env' ∧ name = name' then some v else h.last? env' name' := by
  rw [last?, last?, write, List.filter_append]
  by_cases hsame : env = env' ∧ name = name' <;> simp [hsame]

/-- A name that was written before keeps its place. -/
lemma names_write (h : History) (env env' : ℕ) (name : String) (v : Value) :
    (h.write env [(name, v)]).names env' =
      if env = env' then
        if name ∈ h.names env' then h.names env' else h.names env' ++ [name]
      else h.names env' := by
  rw [names, names, write, List.filter_append, List.map_append, List.eraseDups_append]
  by_cases hsame : env = env'
  · by_cases hmem : name ∈ (h.writes.filter (·.env = env')).map Write.name
    · simp [hsame, List.removeAll, hmem]
    · simp [hsame, List.removeAll, hmem, List.eraseDups_cons]
  · simp [hsame]

end History

namespace Store

variable {s : Store} {h : History}

/-! ### Agreement -/

/-- Environments and a record say the same: there are as many environments, each inside the one that
the record says, which is an earlier one, and each binds the names written there, in the order of
the first writes, to the values written last. -/
structure Agrees (s : Store) (h : History) : Prop where
  size_eq : s.size = h.links.length
  outer?_eq : ∀ k, s.outer? k = h.outer? k
  earlier : ∀ k outer, s.outer? k = some outer → outer < k
  nodup : ∀ k, (s.bindings k).names.Nodup
  names_eq : ∀ k, (s.bindings k).names = h.names k
  get?_eq : ∀ k name, (s.bindings k).get? name = h.last? k name

namespace Agrees

lemma empty : Agrees .empty ⟨[], []⟩ where
  size_eq := rfl
  outer?_eq k := by simp [outer?, frame?, Store.empty, History.outer?]
  earlier k outer houter := by simp [outer?, frame?, Store.empty] at houter
  nodup k := by rw [bindings_eq_nil (Nat.zero_le k)]; exact List.nodup_nil
  names_eq k := by rw [bindings_eq_nil (Nat.zero_le k)]; rfl
  get?_eq k name := by rw [bindings_eq_nil (Nat.zero_le k)]; rfl

/-- A new environment has no bindings, and a record none for it. -/
lemma create (hs : s.Agrees h) {outer : Option ℕ} (houter : ∀ env ∈ outer, env < s.size) :
    (s.create outer).2.Agrees (h.link outer) where
  size_eq := by rw [size_create, hs.size_eq, History.link, List.length_append]; rfl
  outer?_eq k := by rw [outer?_create, History.outer?_link, hs.size_eq, hs.outer?_eq]
  earlier k other hother := by
    rw [outer?_create] at hother
    split at hother
    · next hk => exact hk ▸ houter other hother
    · exact hs.earlier k other hother
  nodup k := by rw [bindings_create]; exact hs.nodup k
  names_eq k := by rw [bindings_create, History.names_link, hs.names_eq]
  get?_eq k name := by rw [bindings_create, History.last?_link, hs.get?_eq]

/-- What one binding does to the bindings of an environment is what one write does to a record. -/
lemma set (hs : s.Agrees h) {env : ℕ} (henv : env < s.size) (name : String) (v : Value) :
    (s.set env name v).Agrees (h.write env [(name, v)]) := by
  have hbindings (k : ℕ) : (s.set env name v).bindings k =
      if env = k then (s.bindings k).set name v else s.bindings k := by
    by_cases hk : k < s.size
    · exact bindings_set hk name v
    -- no environment has this number, so nothing is bound there, before or after
    · have hne : env ≠ k := fun heq => hk (heq ▸ henv)
      rw [if_neg hne, bindings_eq_nil (Nat.not_lt.mp hk), bindings_eq_nil (by simpa using hk)]
  refine ⟨?_, fun k => ?_, fun k outer => ?_, fun k => ?_, fun k => ?_, fun k other => ?_⟩
  · rw [size_set, hs.size_eq]
    rfl
  · rw [outer?_set, History.outer?_write, hs.outer?_eq]
  · rw [outer?_set]
    exact hs.earlier k outer
  · rw [hbindings]
    split
    · exact Bindings.nodup_names_set (hs.nodup k) name v
    · exact hs.nodup k
  · rw [hbindings, History.names_write, ← hs.names_eq]
    split
    · exact Bindings.names_set _ _ _
    · rfl
  · rw [hbindings, History.last?_write, ← hs.get?_eq]
    by_cases hk : env = k
    · rw [if_pos hk, Bindings.get?_set]
      simp only [hk, true_and]
    · simp only [hk, false_and, if_false]

lemma setAll (hs : s.Agrees h) {env : ℕ} (henv : env < s.size)
    (entries : List (String × Value)) :
    (s.setAll env entries).Agrees (h.write env entries) := by
  induction entries generalizing s h with
  | nil => simpa [History.write, Store.setAll] using hs
  | cons entry rest ih =>
      rw [History.write_cons]
      exact ih (hs.set henv entry.1 entry.2) (by rwa [size_set])

/-- **One operation** on environments that exist, with or without success. -/
theorem apply (hs : s.Agrees h) {op : Operation} (hop : ∀ env ∈ op.env?, env < s.size) :
    (op.apply s).2.Agrees (h.record op) := by
  cases op with
  | create outer => exact hs.create hop
  | set env key value =>
      rw [Operation.apply, setNamed_snd]
      exact hs.setAll (hop env rfl) _
  | update env entries =>
      rw [Operation.apply, update, setNamed_snd]
      exact hs.setAll (hop env rfl) _
  | register env => exact hs.setAll (hop env rfl) _
  | bind outer params args =>
      rw [Operation.apply, History.record]
      by_cases hlen : params.length = args.length
      · cases hnames : params.mapM Value.name? with
        | none =>
            obtain ⟨f, hf⟩ := bindNamedArguments_of_not_names s outer hlen hnames
            rw [hf]
            exact hs
        | some names =>
            have hchild : (s.create (some outer)).2.Agrees (h.link (some outer)) := hs.create hop
            rw [bindNamedArguments_of_names s outer hlen hnames]
            simp only [if_pos hlen, ← hs.size_eq]
            exact hchild.setAll (by simp) _
      · rw [bindNamedArguments_of_length_ne s outer hlen]
        simp only [if_neg hlen]
        cases params.mapM Value.name? with
        | none | some _ => exact hs

end Agrees

/-- **All operations**: the environments agree with the record. -/
theorem Operated.agrees {ops : List Operation} (hops : Operated ops s) :
    s.Agrees (.ofOperations ops) := by
  induction hops with
  | nil => exact .empty
  | snoc _ hop ih =>
      rw [History.ofOperations, List.foldl_append]
      exact ih.apply hop

/-! ### What agreement says -/

namespace Agrees

variable {env : ℕ}

/-- An environment binds what was written there, in the order of the first writes. -/
lemma bindings_eq (hs : s.Agrees h) (env : ℕ) : s.bindings env = h.entries env := by
  have hentries := Bindings.eq_filterMap (hs.nodup env)
  rw [hs.names_eq] at hentries
  simpa only [History.entries, hs.get?_eq] using hentries

/-- A lookup asks what was written in the environment and goes on outwards. -/
lemma find?_eq (hs : s.Agrees h) (henv : env < s.size) (name : String) :
    s.find? env name = ((h.last? env name).map fun _ => env).or
      ((h.outer? env).bind fun outer => s.find? outer name) := by
  rw [find?, chain_eq_of_links henv (hs.earlier env), List.find?_cons, hs.get?_eq, hs.outer?_eq]
  cases h.last? env name with
  | some v => rfl
  | none => cases h.outer? env <;> rfl

/-- **What a name means** is what the record says. -/
theorem exists_resolves (hs : s.Agrees h) (henv : env < s.size) (name : String) :
    ∃ found, h.Resolves name env found ∧ s.find? env name = found.map Prod.fst ∧
      s.get? env name = found.map Prod.snd := by
  -- links lead to earlier environments, so the induction is on the number
  induction env using Nat.strongRecOn with
  | _ env ih =>
      have hfind := hs.find?_eq henv name
      cases hlast : h.last? env name with
      | some v =>
          rw [hlast] at hfind
          refine ⟨some (env, v), .own hlast, hfind, ?_⟩
          rw [get?, hfind]
          exact (hs.get?_eq env name).trans hlast
      | none =>
          rw [hlast, Option.map_none, Option.none_or] at hfind
          cases houter : h.outer? env with
          | none =>
              rw [houter] at hfind
              exact ⟨none, .lost hlast houter, hfind, by rw [get?, hfind]; rfl⟩
          | some outer =>
              have hlt := hs.earlier env outer ((hs.outer?_eq env).trans houter)
              obtain ⟨found, hresolves, hfound, hget⟩ := ih outer hlt (hlt.trans henv)
              rw [houter] at hfind
              refine ⟨found, .outwards hlast houter hresolves, hfind.trans hfound, ?_⟩
              rw [← hget, get?, hfind]
              rfl

end Agrees

/-! ### Displays -/

/-- Bindings whose values have a diagnostic form have a display. -/
lemma displayBindings_of_shown {b : Bindings} {shown : Value → String}
    (hb : ∀ entry ∈ b, entry.2.inspect = .ok (shown entry.2)) :
    displayBindings b = .ok ("\x7b" ++
      ", ".intercalate (b.map fun entry => entry.1 ++ ": " ++ shown entry.2) ++ "\x7d") := by
  have hentries : b.mapM displayEntry =
      .ok (b.map fun entry => entry.1 ++ ": " ++ shown entry.2) := by
    induction b with
    | nil => rfl
    | cons entry rest ih =>
        rw [List.mapM_cons, displayEntry, hb entry List.mem_cons_self,
          ih fun other hother => hb other (List.mem_cons_of_mem _ hother)]
        rfl
  rw [displayBindings, hentries]
  rfl

/-- Bindings with an integer over the digit limit have none. -/
lemma displayBindings_of_not_shown {b : Bindings}
    (hb : ∃ entry ∈ b, ¬ entry.2.AllLeaves Value.IsShown) :
    displayBindings b = .error .longInteger := by
  have hentries : b.mapM displayEntry = .error .longInteger := by
    induction b with
    | nil => simp at hb
    | cons entry rest ih =>
        rw [List.mapM_cons, displayEntry]
        by_cases hentry : entry.2.AllLeaves Value.IsShown
        · obtain ⟨text, htext⟩ := Value.exists_inspect hentry
          rw [htext, ih (by simpa [hentry] using hb)]
          rfl
        · rw [Value.inspect_eq_longInteger hentry]
          rfl
  rw [displayBindings, hentries]
  rfl

/-- **Displays** are what the record says, unless a value written last holds an integer over the
digit limit. -/
theorem Agrees.display_cases (hs : s.Agrees h) (env : ℕ) :
    ((∀ entry ∈ h.entries env, entry.2.AllLeaves Value.IsShown) →
      ∃ shown : Value → String, (∀ entry ∈ h.entries env, entry.2.inspect = .ok (shown entry.2)) ∧
        s.display env = .ok (h.display env shown)) ∧
    ((∃ entry ∈ h.entries env, ¬ entry.2.AllLeaves Value.IsShown) →
      s.display env = .error .longInteger) := by
  rw [display, hs.bindings_eq, hs.outer?_eq]
  refine ⟨fun hall => ?_, fun hlong => ?_⟩
  · set shown : Value → String := fun v => v.inspect.toOption.getD ""
    have hshown : ∀ entry ∈ h.entries env, entry.2.inspect = .ok (shown entry.2) := by
      intro entry hentry
      obtain ⟨text, htext⟩ := Value.exists_inspect (hall entry hentry)
      simp only [shown, htext]
      rfl
    refine ⟨shown, hshown, ?_⟩
    rw [displayBindings_of_shown hshown, History.display]
    cases h.outer? env with
    | some outer => rfl
    | none => simp only [Option.isSome_none, Bool.false_eq_true, if_false, String.append_empty]; rfl
  · rw [displayBindings_of_not_shown hlong]
    rfl

end Store

/-! ### Whole histories -/

open Store

/-- **The record of writes.** After any operations of a host, with or without success, a name that
is given as a symbol or as a string means in an environment what was written last for it in the
nearest environment of the way outwards in which it was ever written; it is found there, and a
lookup fails as unbound exactly if there is none. An environment binds the names written there,
each once, in the order of the first writes, to the values written last, and this is what its
display shows, unless one of these values holds an integer over the digit limit. Binding as many
parameters as arguments is a new environment and one binding for each parameter in order, and
binding another number fails and changes nothing. The update with a mapping is one binding for
each entry in order, up to the first key that is no name. -/
theorem environments_agree_with_writes {ops : List Operation} {s : Store} (hops : Operated ops s) :
    let h := History.ofOperations ops
    (∀ env < s.size, ∀ key name, Value.name? key = some name → key.asName = .ok name ∧
      ∃ found, h.Resolves name env found ∧ (∀ other, h.Resolves name env other → other = found) ∧
        s.find? env name = found.map Prod.fst ∧ s.contains env name = found.isSome ∧
        ∀ m : Machine, m.store = s → EvalM.lookup env name m =
          found.elim (.error (.unbound name) m) fun there => .ok there.2 m) ∧
    (∀ env < s.size, s.bindings env = h.entries env ∧
      ((∀ entry ∈ h.entries env, entry.2.AllLeaves Value.IsShown) →
        ∃ shown : Value → String,
          (∀ entry ∈ h.entries env, entry.2.inspect = .ok (shown entry.2)) ∧
          s.display env = .ok (h.display env shown)) ∧
      ((∃ entry ∈ h.entries env, ¬ entry.2.AllLeaves Value.IsShown) →
        s.display env = .error .longInteger)) ∧
    (∀ outer params args,
      (params.length ≠ args.length → (Operation.bind outer params args).apply s =
        (.error (.closureArity params.length args.length), s)) ∧
      ∀ names, params.mapM Value.name? = some names → params.length = args.length →
        (Operation.bind outer params args).apply s =
          (.ok (), (s.create (some outer)).2.setAll s.size (names.zip args))) ∧
    ∀ env entries, entries.Pairwise (fun a b => ¬ a.1.sameKey b.1) →
      ((∀ entry ∈ entries, entry.1.name?.isSome) → (Operation.update env entries).apply s =
        (.ok (), s.setAll env (namedEntries entries))) ∧
      ∀ before key value after, entries = before ++ (key, value) :: after →
        (∀ entry ∈ before, entry.1.name?.isSome) → key.name? = none →
        (Operation.update env entries).apply s =
          (.error (Fault.showing key.inspect .notAName), s.setAll env (namedEntries before)) := by
  intro h
  -- the store agrees with the record after every operation, so only single lookups are left
  have hs : s.Agrees h := hops.agrees
  refine ⟨fun env henv key name hname => ⟨?_, ?_⟩,
    fun env _ => ⟨hs.bindings_eq env, hs.display_cases env⟩,
    fun outer params args => ⟨fun hlen => ?_, fun names hnames hlen => ?_⟩,
    fun env entries hmapping => ⟨fun hnames => ?_, ?_⟩⟩
  · rw [Value.asName_eq, hname]
    rfl
  · -- the record resolves the name at one place, where the store finds it too
    obtain ⟨found, hresolves, hfind, hget⟩ := hs.exists_resolves henv name
    refine ⟨found, hresolves, fun other hother => hresolves.unique hother, hfind, ?_, ?_⟩
    · rw [Store.contains, hfind, Option.isSome_map]
    · rintro m rfl
      rw [EvalM.lookup, hget]
      cases found <;> rfl
  · -- the numbers of parameters and arguments are compared before an environment is made
    rw [Operation.apply, bindNamedArguments_of_length_ne s outer hlen]
  · rw [Operation.apply, bindNamedArguments_of_names s outer hlen hnames]
    rfl
  · -- the keys of a mapping differ, so every entry is written once, in its place
    rw [Operation.apply, update, mapping_of_pairwise hmapping]
    exact setNamed_of_names hnames
  · rintro before key value after hsplit hbefore hkey
    rw [Operation.apply, update, mapping_of_pairwise hmapping, hsplit]
    exact setNamed_of_not_name hbefore hkey

/-- A name that is bound outside of an environment after this was made, and an update of the
environment that fails at its second key. -/
theorem binding_outside_of_child :
    let ops : List Operation :=
      [.create none, .create (some 0), .set 0 (.str "x") .nil,
        .update 1 [(.sym "y", .nil), (.nil, .nil)]]
    ∃ s, Operated ops s ∧ s.find? 1 "x" = some 0 ∧ s.display 1 = .ok "\x7by: nil\x7d -> ..." := by
  intro ops
  have hops : Operated ops _ :=
    .snoc (.snoc (.snoc (.snoc .nil (by decide)) (by decide)) (by decide)) (by decide)
  obtain ⟨hlookup, hdisplay, -, -⟩ := environments_agree_with_writes hops
  refine ⟨_, hops, ?_, ?_⟩
  · obtain ⟨-, found, hresolves, hunique, hfind, -⟩ := hlookup 1 (by decide) (.sym "x") "x" rfl
    have hroot : (History.ofOperations ops).Resolves "x" 1 (some (0, .nil)) :=
      .outwards rfl rfl (.own rfl)
    rw [hfind, ← hunique _ hroot]
    rfl
  · obtain ⟨-, hshown, -⟩ := hdisplay 1 (by decide)
    have hentries : (History.ofOperations ops).entries 1 = [("y", .nil)] := rfl
    simp only [hentries, List.forall_mem_singleton] at hshown
    obtain ⟨shown, hnil, hdisplay⟩ := hshown (.leaf (by simp) (by simp [Value.IsShown]))
    have hnil : shown .nil = "nil" := (Except.ok.inj hnil).symm
    rw [hdisplay, History.display, hentries, List.map_singleton, hnil]
    rfl

/-- An environment in which an integer over the digit limit is written has no display. -/
lemma display_of_long_integer {n : ℤ} (hn : ¬ (Text.decimal? n).isSome) :
    let ops : List Operation := [.create none, .set 0 (.sym "n") (.int n)]
    ∃ s, Operated ops s ∧ (History.ofOperations ops).entries 0 = [("n", .int n)] ∧
      s.display 0 = .error .longInteger := by
  intro ops
  have hops : Operated ops _ :=
    .snoc (.snoc .nil (by decide)) (by simp [Operation.env?, Operation.apply])
  have hentries : (History.ofOperations ops).entries 0 = [("n", .int n)] := rfl
  refine ⟨_, hops, hentries, (hops.agrees.display_cases 0).2 ⟨("n", .int n), ?_, ?_⟩⟩
  · rw [hentries]
    exact List.mem_singleton_self _
  · exact fun h => hn (Value.isShown_int.mp (Value.allLeaves_int.mp h))

/-- The square of a one with 2200 zeros is written in an environment, which then has no display. -/
theorem long_integer_lacks_display :
    let n : ℤ := Int.ofNat (Nat.pow 10 2200)
    let ops : List Operation := [.create none, .set 0 (.sym "n") (.int (n * n))]
    ∃ s, Operated ops s ∧ (History.ofOperations ops).entries 0 = [("n", .int (n * n))] ∧
      s.display 0 = .error .longInteger :=
  display_of_long_integer (by decide +kernel)

end TinyLisp
