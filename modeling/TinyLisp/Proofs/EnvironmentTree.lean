/-
The tree of environments.

The store changes in two ways: a new environment is hung inside another one, and
a name is bound. Neither moves an environment that is there. So the environments
of a session are one tree, whatever failed half-way, and a walk outwards from any
of them ends, at the latest with the global environment.

* `Value.Captures`: the environments that the closures of a value captured.
* `Store.Changes`: one change of a store.
* `Evaluates.changes`, `Session.Leads.changes`: runs and sessions are rows of changes.
* `Store.IsRooted`, `Store.IsTree`: every environment but the root has an outer one,
  and the whole way outwards from each ends at the root.
* `Store.Walks`: a walk outwards up to the first environment that passes a test.
* `environments_form_one_tree` (**the tree of environments**).
-/
import TinyLisp.Environment.Display
import TinyLisp.Proofs.Lookups
import TinyLisp.Proofs.Repetition
import TinyLisp.Proofs.Splitting

namespace TinyLisp

/-! ### Captured environments -/

/-- A closure in a value, or in the body of one of its closures, captured the environment `k`. -/
inductive Value.Captures (k : ℕ) : Value → Prop where
  | closure {params body} : Captures k (.closure params body k)
  | body {params body env} (h : Captures k body) : Captures k (.closure params body env)
  | item {items v} (hv : v ∈ items) (h : Captures k v) : Captures k (.list items)

lemma Value.CapturesBelow.lt {n k : ℕ} {v : Value} (h : v.CapturesBelow n) (hk : v.Captures k) :
    k < n := by
  induction hk with
  | closure =>
      rw [CapturesBelow] at h
      exact h.1
  | body _ ih =>
      rw [CapturesBelow] at h
      exact ih h.2
  | item hv _ ih => exact ih (capturesBelow_list.mp h _ hv)

/-! ### Changes of a store -/

namespace Store

variable {s s' : Store} {root : ℕ}

/-- One change of a store: a new environment inside another one, or a binding. -/
inductive Changes : Store → Store → Prop where
  | create (s : Store) (outer : ℕ) : Changes s (s.create (some outer)).2
  | set (s : Store) (env : ℕ) (name : String) (v : Value) : Changes s (s.set env name v)

/-- A change moves no environment and takes no binding away. -/
lemma Changes.keeps (h : s.Changes s') : s.Keeps (fun _ => Set.univ) s' := by
  cases h with
  | create outer => exact .create _ s _
  | set env name v => exact .set_any s env name v

lemma keeps_of_changes (h : Relation.ReflTransGen Changes s s') :
    s.Keeps (fun _ => Set.univ) s' := by
  induction h with
  | refl => exact .refl _ s
  | tail _ hchange ih => exact ih.trans hchange.keeps fun _ _ => subset_rfl

lemma changes_setAll (s : Store) (env : ℕ) (entries : List (String × Value)) :
    Relation.ReflTransGen Changes s (s.setAll env entries) := by
  induction entries generalizing s with
  | nil => exact .refl
  | cons entry rest ih => exact .head (.set s env entry.1 entry.2) (ih _)

lemma changes_createWith (s : Store) (outer : ℕ) (entries : List (String × Value)) :
    Relation.ReflTransGen Changes s (s.createWith outer entries).2 :=
  .head (.create s outer) (changes_setAll _ s.size entries)

end Store

/-- **A run is a row of changes**, with a value or with a fault. -/
theorem Evaluates.changes {limit : Int} {job : Job} {m : Machine} {r : Outcome}
    (h : Evaluates limit job m r) :
    Relation.ReflTransGen Store.Changes m.store r.machine.store := by
  induction h with
  | tooDeep | bound | unbound | constant | formTooDeep | nil | scopeName | primitiveTooDeep
  | arity | notCallable => exact .refl
  | immediate | primitive => rw [Outcome.machine_ofResult]
  | special _ _ _ _ ih | headFault _ _ _ ih | argumentsTooDeep _ _ _ _ ih | defineFault _ ih
  | sequence _ ih | sequenceFault _ ih | conditionFault _ _ ih | noBranch _ _ _ ih
  | firstFault _ ih | scopeBody _ _ ih | scopeFault _ ih => exact ih
  | argumentsFault _ _ _ _ _ ih₁ ih₂ | branch _ _ _ _ ih₁ ih₂ | restFault _ _ ih₁ ih₂
  | cons _ _ ih₁ ih₂ => exact ih₁.trans ih₂
  | application _ _ _ _ _ _ ih₁ ih₂ ih₃ => exact (ih₁.trans ih₂).trans ih₃
  | define _ ih => exact ih.tail (.set _ _ _ _)
  | letIn _ _ ih => exact .head (.create _ _) ih
  | scopeBinding _ _ ih₁ ih₂ => exact (ih₁.tail (.set _ _ _ _)).trans ih₂
  | refused | bodyTooDeep => exact Store.changes_createWith _ _ _
  | bodyFault _ _ _ _ ih | call _ _ _ _ ih =>
      exact (Store.changes_createWith _ _ _).trans ih

namespace Session

variable {s s' : Session}

lemma evalForm_changes (s : Session) (debug : Bool) (form : Value) :
    Relation.ReflTransGen Store.Changes s.store (s.evalForm debug form).session.store := by
  obtain ⟨store, guard, room⟩ := s
  have hrun := (evaluates_runIn guard.limit room global form ⟨store, guard.depth, []⟩).changes
  unfold evalForm
  split
  · exact .refl
  · simp only
    split
    all_goals
      next heq =>
      rw [heq] at hrun
      exact hrun

lemma evalForms_changes (s : Session) (debug : Bool) (last : Value) (forms : List Value) :
    Relation.ReflTransGen Store.Changes s.store (s.evalForms debug last forms).session.store := by
  induction forms generalizing s last with
  | nil => exact .refl
  | cons form rest ih =>
      have hfirst := evalForm_changes s debug form
      rw [evalForms]
      split
      · next heq => rwa [heq] at hfirst
      · next v s' log heq =>
          rw [heq] at hfirst
          exact hfirst.trans (ih s' v)

lemma eval_changes (s : Session) (debug : Bool) (source : String) :
    Relation.ReflTransGen Store.Changes s.store (s.eval debug source).session.store := by
  unfold eval
  split
  · exact .refl
  · exact evalForms_changes s debug _ _

/-- **A session is a row of changes**, whatever its texts come to. -/
theorem Leads.changes (h : s.Leads s') : Relation.ReflTransGen Store.Changes s.store s'.store := by
  induction h with
  | refl => exact .refl
  | eval _ debug source ih | respond _ debug source ih => exact ih.trans (eval_changes _ _ _)

end Session

/-! ### Rooted stores -/

namespace Store

variable {s s' : Store} {root : ℕ}

/-- The root is the only environment without an outer one. -/
structure IsRooted (s : Store) (root : ℕ) : Prop where
  root_lt : root < s.size
  outer?_eq_none_iff : ∀ k < s.size, s.outer? k = none ↔ k = root

namespace IsRooted

/-- A single environment is a root. -/
lemma single : (Store.empty.create none).2.IsRooted 0 where
  root_lt := Nat.zero_lt_one
  outer?_eq_none_iff k hk := by
    obtain rfl : k = 0 := Nat.lt_one_iff.mp hk
    exact iff_of_true rfl rfl

lemma of_change (h : s.IsRooted root) (hchange : s.Changes s') : s'.IsRooted root := by
  refine ⟨h.root_lt.trans_le hchange.keeps.size_le, fun k hk => ?_⟩
  cases hchange with
  | create outer =>
      rw [outer?_create]
      split
      · next heq => exact iff_of_false nofun (heq ▸ h.root_lt.ne')
      · next hne =>
          rw [size_create] at hk
          exact h.outer?_eq_none_iff k (by omega)
  | set env name v =>
      rw [outer?_set]
      exact h.outer?_eq_none_iff k (by simpa using hk)

lemma of_changes (h : s.IsRooted root) (hchanges : Relation.ReflTransGen Changes s s') :
    s'.IsRooted root := by
  induction hchanges with
  | refl => exact h
  | tail _ hchange ih => exact ih.of_change hchange

end IsRooted

/-- The environments are one tree: the root has no outer environment, and the whole way outwards
from each environment is finite, comes to none twice, and ends at the root. -/
structure IsTree (s : Store) (root : ℕ) : Prop where
  root_lt : root < s.size
  outer?_root : s.outer? root = none
  head?_chain : ∀ k < s.size, (s.chain k).head? = some k
  isWay_chain : ∀ k < s.size, s.IsWay (s.chain k)
  nodup_chain : ∀ k < s.size, (s.chain k).Nodup
  getLast?_chain : ∀ k < s.size, (s.chain k).getLast? = some root

/-- Environments farther outwards are earlier, so none comes twice. -/
lemma WellFormed.nodup_chain (h : s.WellFormed) {k : ℕ} (hk : k < s.size) : (s.chain k).Nodup := by
  induction k using Nat.strongRecOn with
  | _ k ih =>
      rw [h.chain_eq hk]
      cases houter : s.outer? k with
      | none => exact List.nodup_singleton k
      | some outer =>
          have hlt : outer < k := h.outer_lt k outer houter
          refine List.nodup_cons.mpr ⟨fun hmem => ?_, ih outer hlt (hlt.trans hk)⟩
          exact (le_of_mem_chain hmem).not_gt hlt

lemma WellFormed.getLast?_chain (h : s.WellFormed) (hroot : s.IsRooted root) {k : ℕ}
    (hk : k < s.size) : (s.chain k).getLast? = some root := by
  induction k using Nat.strongRecOn with
  | _ k ih =>
      rw [h.chain_eq hk]
      cases houter : s.outer? k with
      | none => rw [(hroot.outer?_eq_none_iff k hk).mp houter]; rfl
      | some outer =>
          have hlt : outer < k := h.outer_lt k outer houter
          rw [Option.elim_some, List.getLast?_cons, ih outer hlt (hlt.trans hk)]
          rfl

/-- **Rooted stores are trees** when their links lead to earlier environments. -/
theorem WellFormed.isTree (h : s.WellFormed) (hroot : s.IsRooted root) : s.IsTree root where
  root_lt := hroot.root_lt
  outer?_root := (hroot.outer?_eq_none_iff root hroot.root_lt).mpr rfl
  head?_chain _ hk := (h.isWay_chain hk).1
  isWay_chain _ hk := (h.isWay_chain hk).2
  nodup_chain _ hk := h.nodup_chain hk
  getLast?_chain _ hk := h.getLast?_chain hroot hk

/-! ### Walks outwards -/

/-- A walk outwards by the links, environment by environment, up to the first that passes a test or
to one that has no outer environment: the environments on the way, and the one that passed. -/
inductive Walks (s : Store) (passes : ℕ → Bool) : ℕ → List ℕ → Option ℕ → Prop where
  | found {env} (h : passes env = true) : Walks s passes env [env] (some env)
  | outwards {env outer visited found} (h : passes env = false)
      (hlink : s.outer? env = some outer) (hrest : Walks s passes outer visited found) :
    Walks s passes env (env :: visited) found
  | lost {env} (h : passes env = false) (hlink : s.outer? env = none) :
    Walks s passes env [env] none

/-- A walk finds the first environment of the whole way that passes, and visits all of the way
otherwise. -/
lemma IsWay.exists_walks {way : List ℕ} (hway : s.IsWay way) (passes : ℕ → Bool) :
    ∀ env, way.head? = some env → ∃ visited, s.Walks passes env visited (way.find? passes) ∧
      (way.find? passes = none → visited = way) := by
  induction way with
  | nil => exact hway.elim
  | cons k rest ih =>
      intro env henv
      obtain rfl : k = env := Option.some.inj henv
      cases hpass : passes k with
      | true =>
          rw [List.find?_cons_of_pos hpass]
          exact ⟨_, .found hpass, nofun⟩
      | false =>
          rw [List.find?_cons_of_neg (by simp [hpass])]
          cases rest with
          | nil => exact ⟨_, .lost hpass hway, fun _ => rfl⟩
          | cons outer rest =>
              obtain ⟨visited, hwalk, hall⟩ := ih hway.2 outer rfl
              exact ⟨_, .outwards hpass hway.1 hwalk, fun hnone => congrArg _ (hall hnone)⟩

/-- A name means nothing exactly when no environment is found for it. -/
lemma get?_eq_none_iff_find? {env : ℕ} {name : String} :
    s.get? env name = none ↔ s.find? env name = none := by
  rw [get?_eq_none_iff, visible, Set.mem_ofPred_eq, contains, Option.not_isSome_iff_eq_none]

namespace IsTree

variable {k : ℕ}

/-- **Lookups** walk outwards, and one that finds nothing comes to the root at last. -/
theorem find?_walks (h : s.IsTree root) (hk : k < s.size) (name : String) :
    ∃ visited, s.Walks (fun e => ((s.bindings e).get? name).isSome) k visited (s.find? k name) ∧
      (s.find? k name = none → visited.getLast? = some root) := by
  obtain ⟨visited, hwalk, hall⟩ := (h.isWay_chain k hk).exists_walks
    (fun e => ((s.bindings e).get? name).isSome) k (h.head?_chain k hk)
  exact ⟨visited, hwalk, fun hnone => hall hnone ▸ h.getLast?_chain k hk⟩

/-- The long display walks to the root. -/
theorem displayChain_walks (h : s.IsTree root) (hk : k < s.size) :
    ∃ visited, s.Walks (fun _ => false) k visited none ∧ visited.getLast? = some root ∧
      s.displayChain k = (visited.mapM fun e => displayBindings (s.bindings e)).map fun shown =>
        "<Environment chain: " ++ " -> ".intercalate shown ++ ">" := by
  obtain ⟨visited, hwalk, hall⟩ := (h.isWay_chain k hk).exists_walks (fun _ => false) k
    (h.head?_chain k hk)
  have hnone : (s.chain k).find? (fun _ => false) = none := by simp
  obtain rfl := hall hnone
  exact ⟨_, hnone ▸ hwalk, h.getLast?_chain k hk, rfl⟩

end IsTree

end Store

/-! ### The tree of a session -/

namespace Session

variable {s₀ s : Session}

lemma initialStore_isRooted : initialStore.IsRooted global :=
  Store.IsRooted.single.of_changes (Store.changes_setAll _ _ _)

/-- The primitives are bound in the global environment of a new session. -/
lemma name_mem_initialStore (p : Primitive) :
    p.name ∈ (initialStore.bindings global).names := by
  have hentry : (p.name, Value.builtin p) ∈ Primitive.all.map fun p => (p.name, .builtin p) :=
    List.mem_map_of_mem p.mem_all
  have hglobal : global < (Store.empty.create none).2.size := Nat.zero_lt_one
  exact Store.mem_names_setAll hglobal hentry

/-- Every state of a session comes from the store with the primitives by a row of changes. -/
lemma Leads.changes_initialStore {guard : CallGuard} {room : Room}
    (hstart : Session.start guard room = .ok s₀) (hleads : s₀.Leads s) :
    Relation.ReflTransGen Store.Changes initialStore s.store := by
  obtain ⟨_, -, rfl⟩ := exists_of_map_eq_ok hstart
  exact hleads.changes

lemma Leads.isTree {guard : CallGuard} {room : Room} (hstart : Session.start guard room = .ok s₀)
    (hleads : s₀.Leads s) : s.store.IsTree global :=
  (hleads.wellFormed hstart).isTree
    (initialStore_isRooted.of_changes (hleads.changes_initialStore hstart))

/-- The closures of a value that a text comes to captured environments of the session. -/
lemma Leads.captures_lt {guard : CallGuard} {room : Room}
    (hstart : Session.start guard room = .ok s₀) (hleads : s₀.Leads s) {debug : Bool}
    {source : String} {v : Value} (hv : (s.eval debug source).outcome = .ok v) {c : ℕ}
    (hc : v.Captures c) : c < (s.eval debug source).session.store.size := by
  have hs := hleads.obeys Discipline.captures_forTexts
    (start_obeys Discipline.captures_forTexts hstart)
  exact ((eval_obeys Discipline.captures_forTexts hs debug source).value v hv).lt hc

end Session

open Session

/-- **The tree of environments.** After any texts in a new session, whatever failed, the
environments are one tree with the global environment as its root, in which the primitives are
still bound. The closures that are bound anywhere, and those in the value of the next text, captured
environments of that tree. Texts only add environments and bindings, and no such change moves an
environment. So a lookup from any environment ends, and it finds nothing only after it came to the
global environment; the long display of an environment shows all from there to the global one. -/
theorem environments_form_one_tree {guard : CallGuard} {room : Room} {s₀ s : Session}
    (hstart : Session.start guard room = .ok s₀) (hleads : s₀.Leads s) :
    s.store.IsTree global ∧
    (∀ p : Primitive, p.name ∈ (s.store.bindings global).names) ∧
    (∀ k, ∀ entry ∈ s.store.bindings k, ∀ c, entry.2.Captures c → c < s.store.size) ∧
    (∀ debug source v, let after := s.eval debug source
      after.outcome = .ok v → after.session.store.IsTree global ∧
        ∀ c, v.Captures c → c < after.session.store.size) ∧
    (∀ s', s.Leads s' → Relation.ReflTransGen Store.Changes s.store s'.store ∧
      ∀ k < s.store.size, s'.store.outer? k = s.store.outer? k) ∧
    (∀ a b, Store.Changes a b → ∀ k < a.size, b.outer? k = a.outer? k) ∧
    ∀ k < s.store.size,
      (∀ name,
        (s.store.get? k name = none ↔ s.store.find? k name = none) ∧
        ∃ visited, s.store.Walks (fun e => ((s.store.bindings e).get? name).isSome) k visited
            (s.store.find? k name) ∧
          (s.store.find? k name = none → visited.getLast? = some global)) ∧
      ∃ visited, s.store.Walks (fun _ => false) k visited none ∧
        visited.getLast? = some global ∧
        s.store.displayChain k =
          (visited.mapM fun e => Store.displayBindings (s.store.bindings e)).map fun shown =>
            "<Environment chain: " ++ " -> ".intercalate shown ++ ">" := by
  have htree := hleads.isTree hstart
  have hwell := hleads.wellFormed hstart
  have hkeeps := Store.keeps_of_changes (hleads.changes_initialStore hstart)
  refine ⟨htree, fun p => ?_, fun k entry hentry c hc => ?_, fun debug source v => ?_,
    fun s' hs' => ?_, fun a b hchange => hchange.keeps.outer?_eq, fun k hk => ⟨fun name => ?_, ?_⟩⟩
  · exact hkeeps.names_subset global initialStore_isRooted.root_lt (name_mem_initialStore p)
  · exact (hwell.captures k entry hentry).lt hc
  · intro after hv
    exact ⟨(hleads.eval debug source).isTree hstart, fun c hc => hleads.captures_lt hstart hv hc⟩
  · exact ⟨hs'.changes, (Store.keeps_of_changes hs'.changes).outer?_eq⟩
  · exact ⟨Store.get?_eq_none_iff_find?, htree.find?_walks hk name⟩
  · exact htree.displayChain_walks hk

/-- The environment that a closure captured in a scope, behind a text that fails in another one. -/
theorem captured_scope_is_in_tree :
    let s₀ : Session := ⟨initialStore, .ofSetting none, none⟩
    let s := (s₀.eval false "(let* (y 1) (if))").session
    let after := s.eval false "(let* (x 1) (fn* () x))"
    after.outcome = .ok (.closure [] (.sym "x") 2) ∧ 2 < after.session.store.size ∧
      (after.session.store.chain 2).getLast? = some global := by
  intro s₀ s after
  have htokens₁ : Token.ofSource "(let* (y 1) (if))" =
      [⟨.openParen, "("⟩, ⟨.atom, "let*"⟩, ⟨.openParen, "("⟩, ⟨.atom, "y"⟩, ⟨.atom, "1"⟩,
        ⟨.closeParen, ")"⟩, ⟨.openParen, "("⟩, ⟨.atom, "if"⟩, ⟨.closeParen, ")"⟩,
        ⟨.closeParen, ")"⟩] := by
    cbv
  have htokens₂ : Token.ofSource "(let* (x 1) (fn* () x))" =
      [⟨.openParen, "("⟩, ⟨.atom, "let*"⟩, ⟨.openParen, "("⟩, ⟨.atom, "x"⟩, ⟨.atom, "1"⟩,
        ⟨.closeParen, ")"⟩, ⟨.openParen, "("⟩, ⟨.atom, "fn*"⟩, ⟨.openParen, "("⟩,
        ⟨.closeParen, ")"⟩, ⟨.atom, "x"⟩, ⟨.closeParen, ")"⟩, ⟨.closeParen, ")"⟩] := by
    cbv
  have hread₁ : readAll "(let* (y 1) (if))" =
      .ok [.list [.sym "let*", .list [.sym "y", .int 1], .list [.sym "if"]]] :=
    readAll_of_tokens htokens₁ rfl (List.cons_ne_nil _ _)
  have hread₂ : readAll "(let* (x 1) (fn* () x))" =
      .ok [.list [.sym "let*", .list [.sym "x", .int 1],
        .list [.sym "fn*", .list [], .sym "x"]]] :=
    readAll_of_tokens htokens₂ rfl (List.cons_ne_nil _ _)
  have hleads : s₀.Leads s := .eval .refl false _
  have hvalue : after.outcome = .ok (.closure [] (.sym "x") 2) := by
    have hroom : s₀.HasRoomToRead "(let* (x 1) (fn* () x))" := rfl
    have hfirst : s = (s₀.evalForms false .nil _).session :=
      congrArg Logged.session (eval_of_readAll false rfl hread₁)
    have hsecond : after = s.evalForms false .nil _ :=
      eval_of_readAll false (hroom.of_sameHost hleads.sameHost) hread₂
    rw [hsecond, hfirst]
    rfl
  obtain ⟨-, -, -, hreturned, -⟩ := environments_form_one_tree
    (rfl : Session.start (CallGuard.ofSetting none) none = .ok s₀) hleads
  obtain ⟨htree, hcaptured⟩ := hreturned false "(let* (x 1) (fn* () x))" _ hvalue
  have hlt : 2 < after.session.store.size := hcaptured 2 .closure
  exact ⟨hvalue, hlt, htree.getLast?_chain 2 hlt⟩

end TinyLisp
