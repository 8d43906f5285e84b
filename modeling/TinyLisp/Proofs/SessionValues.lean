/-
What a session computes can be printed and read back.

A computed value is a tree of data and functions: no symbol and nothing foreign
comes out of an evaluation, and every string and keyword comes from a text. Nor
does the absence of a value come out, which stands before the forms of a text,
because every text that is read has a form. The printed form of a computed value
differs from that of a readable form in the tags of functions only, which are
read as symbols, so reading it back gives the value itself but for these tags.

* `Value.IsComputedLeaf`, `Value.Computed`: the values that come out.
* `Discipline.computed`: they are what every run of a session computes.
* `Value.readBack`: what the printed form of a value is read as.
* `Value.Computed.readable_readBack`: that is a readable form, with the same
  printed form.
* `session_values_read_back` (**values of a session are read back**).
-/
import TinyLisp.Proofs.Reachable
import TinyLisp.Proofs.RoundTrip

namespace TinyLisp

/-! ### Computed values -/

namespace Value

/-- The leaves of computed values: those of data, primitives, and closures of readable bodies. -/
def IsComputedLeaf : Value → Prop
  | builtin _ => True
  | closure _ body _ => body.Readable
  | v => v.IsPlain

/-- The values that come out of evaluations. -/
def Computed (v : Value) : Prop :=
  v.AllLeaves IsComputedLeaf

/-- A constant of a form is its own value. -/
lemma Readable.computed {e : Value} (h : e.Readable) (he : e.isConstant = true) : e.Computed := by
  cases e with
  | list items =>
      cases items with
      | nil => exact .list nofun
      | cons head tail => nomatch he
  | sym name => nomatch he
  | int n => exact .leaf nofun trivial
  | nil | bool _ | str _ | kw _ => exact .leaf nofun (h.of_leaf nofun)
  | builtin _ | closure _ _ _ | foreign _ => exact (h.of_leaf nofun).elim

end Value

/-- Readable forms compute computed values. -/
def Discipline.computed : Discipline where
  env _ _ := True
  source _ e := e.Readable
  value _ v := v.Computed
  env_mono _ h := h
  source_mono _ h := h
  value_mono _ h := h
  env_new _ := trivial
  value_nil _ := .leaf nofun trivial
  value_bool _ _ := .leaf nofun trivial
  value_int _ _ := .leaf nofun trivial
  value_list := Value.allLeaves_list
  value_closure := ⟨fun h => ⟨trivial, h.of_leaf nofun⟩, fun h => .leaf nofun h.2⟩
  value_constant he h := h.computed he
  source_item he h := Value.allLeaves_list.mp h _ he

lemma Discipline.computed_forTexts : Discipline.computed.ForTexts where
  global := trivial
  form h := h
  builtin _ := .leaf nofun trivial

/-! ### What a printed value is read as -/

namespace Value

mutual

/-- What the printed form of a value is read as: the tags of functions are symbols. -/
def readBack : Value → Value
  | builtin _ => sym "<std:fn>"
  | closure _ _ _ => sym "<user:fn>"
  | list items => list (readBackAll items)
  | v => v

/-- What the printed forms of some values are read as. -/
def readBackAll : List Value → List Value
  | [] => []
  | v :: rest => readBack v :: readBackAll rest

end

lemma readBackAll_eq_map (items : List Value) : readBackAll items = items.map readBack := by
  induction items with
  | nil => rfl
  | cons v rest ih => rw [readBackAll, ih, List.map_cons]

lemma readBack_list (items : List Value) : (list items).readBack = list (items.map readBack) := by
  rw [readBack, readBackAll_eq_map]

/-- The printed forms of items are determined by those of each. -/
lemma printItems_map {f : Value → Value} {items : List Value}
    (h : ∀ v ∈ items, printChars (f v) = printChars v) :
    printItems (items.map f) = printItems items := by
  induction items with
  | nil => rfl
  | cons v rest ih =>
      have hv := h v List.mem_cons_self
      have hrest := ih fun w hw => h w (List.mem_cons_of_mem _ hw)
      cases rest with
      | nil => exact hv
      | cons w rest =>
          rw [List.map_cons] at hrest
          rw [List.map_cons, List.map_cons, printItems, printItems, hv, hrest]

variable {v : Value}

/-- The printed form is the same. -/
lemma Computed.printChars_readBack (h : v.Computed) : printChars v.readBack = printChars v := by
  induction h with
  | @leaf v hv h =>
      cases v with
      | list items => exact absurd rfl (hv items)
      | builtin _ | closure _ _ _ | nil | bool _ | int _ | str _ | sym _ | kw _ | foreign _ => rfl
  | list _ ih => rw [readBack_list, printChars, printChars, printItems_map ih]

lemma isSymbol_tag {name : String} (h : name = "<std:fn>" ∨ name = "<user:fn>") :
    IsSymbol name := by
  rcases h with rfl | rfl
  · exact ⟨isAtom_of_all (by decide) rfl, by decide, by decide, by decide, rfl, by decide⟩
  · exact ⟨isAtom_of_all (by decide) rfl, by decide, by decide, by decide, rfl, by decide⟩

/-- A leaf whose digits, if it is an integer, are within the limit on text. -/
def IsShown (v : Value) : Prop :=
  ∀ n, v = int n → (Text.decimal? n).isSome

/-- What a computed value is read back as is a readable form. -/
lemma Computed.readable_readBack (h : v.Computed) (hshown : v.AllLeaves IsShown) :
    v.readBack.Readable := by
  induction h with
  | @leaf v hv h =>
      cases v with
      | list items => exact absurd rfl (hv items)
      | builtin _ => exact .leaf nofun (isSymbol_tag (.inl rfl))
      | closure _ _ _ => exact .leaf nofun (isSymbol_tag (.inr rfl))
      | int n => exact .leaf nofun (hshown.of_leaf nofun n rfl)
      | nil | bool _ | str _ | kw _ => exact .leaf nofun h
      | sym _ | foreign _ => exact h.elim
  | list _ ih =>
      rw [readBack_list]
      refine .list fun w hw => ?_
      obtain ⟨u, hu, rfl⟩ := List.mem_map.mp hw
      exact ih u hu (allLeaves_list.mp hshown u hu)

/-- A value without functions is read back as itself. -/
lemma readBack_eq_self (h : v.AllLeaves fun w => w.isFunction = false) : v.readBack = v := by
  induction h with
  | @leaf v hv h =>
      cases v with
      | list items => exact absurd rfl (hv items)
      | builtin _ | closure _ _ _ => nomatch h
      | nil | bool _ | int _ | str _ | sym _ | kw _ | foreign _ => rfl
  | list _ ih =>
      rw [readBack_list, List.map_congr_left ih, List.map_id']

end Value

/-- **Computed values are read back**: printing succeeds and gives one form with the same text, and
it is the value itself when no function is in it. -/
theorem Value.Computed.readAll_print {v : Value} (h : v.Computed) (hshown : v.AllLeaves IsShown) :
    ∃ text form, v.print = .ok text ∧ readAll text = .ok [form] ∧ form.print = .ok text ∧
      ((v.AllLeaves fun w => w.isFunction = false) → form = v) := by
  obtain ⟨text, hprint, hread⟩ := TinyLisp.readAll_print (h.readable_readBack hshown)
  have hsame : v.print = v.readBack.print := by
    rw [print_eq, print_eq, h.printChars_readBack]
  exact ⟨text, v.readBack, hsame.trans hprint, hread, hprint, readBack_eq_self⟩

/-! ### Values of a session -/

/-- **What a session computes can be printed and read back.** After any texts in a new session,
whatever failed, every value that the next text comes to and every value bound in an environment
is computed: data without symbols and foreign values, with escaped strings and keywords that are
atoms, and functions. So it is read back from its printed form when its integers can be written. -/
theorem session_values_read_back {guard : CallGuard} {room : Room} {s₀ s : Session}
    (hstart : Session.start guard room = .ok s₀) (hleads : s₀.Leads s) (debug : Bool)
    (source : String) (v : Value)
    (hv : (s.eval debug source).outcome = .ok v ∨ ∃ k name, (name, v) ∈ s.store.bindings k) :
    v.Computed ∧ (v.AllLeaves Value.IsShown →
      ∃ text form, v.print = .ok text ∧ readAll text = .ok [form] ∧ form.print = .ok text ∧
        ((v.AllLeaves fun w => w.isFunction = false) → form = v)) := by
  have hs₀ := Session.start_obeys Discipline.computed_forTexts hstart
  have hs := hleads.obeys Discipline.computed_forTexts hs₀
  have hcomputed : v.Computed := by
    rcases hv with hv | ⟨k, name, hv⟩
    · exact (Session.eval_obeys Discipline.computed_forTexts hs debug source).value v hv
    · exact hs.store.value k _ hv
  exact ⟨hcomputed, hcomputed.readAll_print⟩

/-- A list of what a failing text has defined, with an escaped string, a keyword and a negative
integer in it. -/
theorem list_after_fault_is_read_back :
    let s₀ : Session := ⟨Session.initialStore, .ofSetting none, none⟩
    let failing := "(def! x \"a\\\"b\") (if)"
    let failed : Logged Value := s₀.eval false failing
    let text := "(list x (list :k (- 3 15)))"
    let v : Value := .list [.str "a\\\"b", .list [.kw ":k", .int (-12)]]
    failed.outcome = .error (.form .ifArity) ∧
      (failed.session.eval false text).outcome = .ok v ∧
      v.print = .ok "(\"a\\\"b\" (:k -12))" ∧ readAll "(\"a\\\"b\" (:k -12))" = .ok [v] := by
  intro s₀ failing failed text v
  have htokens₁ : Token.ofSource "(def! x \"a\\\"b\") (if)" =
      [⟨.openParen, "("⟩, ⟨.atom, "def!"⟩, ⟨.atom, "x"⟩, ⟨.string, "\"a\\\"b\""⟩,
        ⟨.closeParen, ")"⟩, ⟨.openParen, "("⟩, ⟨.atom, "if"⟩, ⟨.closeParen, ")"⟩] := by
    cbv
  have htokens₂ : Token.ofSource "(list x (list :k (- 3 15)))" =
      [⟨.openParen, "("⟩, ⟨.atom, "list"⟩, ⟨.atom, "x"⟩, ⟨.openParen, "("⟩, ⟨.atom, "list"⟩,
        ⟨.atom, ":k"⟩, ⟨.openParen, "("⟩, ⟨.atom, "-"⟩, ⟨.atom, "3"⟩, ⟨.atom, "15"⟩,
        ⟨.closeParen, ")"⟩, ⟨.closeParen, ")"⟩, ⟨.closeParen, ")"⟩] := by
    cbv
  have hread₁ : readAll failing =
      .ok [.list [.sym "def!", .sym "x", .str "a\\\"b"], .list [.sym "if"]] :=
    readAll_of_tokens htokens₁ rfl (List.cons_ne_nil _ _)
  have hread₂ : readAll text =
      .ok [.list [.sym "list", .sym "x",
        .list [.sym "list", .kw ":k", .list [.sym "-", .int 3, .int 15]]]] :=
    readAll_of_tokens htokens₂ rfl (List.cons_ne_nil _ _)
  have hfailed : failed = s₀.evalForms false .nil _ := Session.eval_of_readAll false rfl hread₁
  have hfault : failed.outcome = .error (.form .ifArity) := by
    rw [hfailed]
    rfl
  have hleads : s₀.Leads failed.session := .eval .refl false failing
  have hvalue : (failed.session.eval false text).outcome = .ok v := by
    have hroom : s₀.HasRoomToRead text := rfl
    rw [Session.eval_of_readAll false (hroom.of_sameHost hleads.sameHost) hread₂, hfailed]
    set_option maxRecDepth 2000 in cbv
  obtain ⟨-, hback⟩ := session_values_read_back
    (rfl : Session.start (CallGuard.ofSetting none) none = .ok s₀) hleads false text v
    (.inl hvalue)
  have hdigits : (Text.decimal? (-12)).isSome := by decide +kernel
  have hshown : v.AllLeaves Value.IsShown := by
    simp [v, Value.allLeaves_list, Value.allLeaves_leaf, Value.IsShown, hdigits]
  obtain ⟨shown, form, hprint, hread, -, hform⟩ := hback hshown
  have hplain : v.AllLeaves fun w => w.isFunction = false := by
    simp [v, Value.allLeaves_list, Value.allLeaves_leaf, Value.isFunction]
  obtain rfl := hform hplain
  have hv : v.print = .ok "(\"a\\\"b\" (:k -12))" := by
    have hinteger : Value.integerChars (-12) = .ok "-12".toList := Value.integerChars_eq hdigits
    rw [Value.print_eq]
    simp only [v, Value.printChars, Value.printItems, hinteger]
    rfl
  obtain rfl := Except.ok.inj (hprint.symm.trans hv)
  exact ⟨hfault, hvalue, hv, hread⟩

end TinyLisp
