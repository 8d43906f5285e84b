/-
Reading in one pass.

A stream holds at most one token, and what is read from it depends on the tokens
to come alone. So all forms of a text are read by one pass over its tokens that
carries nothing but the open lists, and the laws of reading are inductions on
passes that end well.

* `readEvery`: the pass from some open lists on.
* `readEvery_readOn`, `readForms_eq`, `readAll_eq_ok_iff`: it reads what a stream
  reads, and what is read from a text.
* `ReadsWhole`: the passes that end well, token by token.
* `ReadsWhole.readEvery_append` (**forms of a concatenation**): such a pass goes
  on with the tokens behind it as from the start.
* `ReadsWhole.readLevels_append`: and so do the levels of nesting.
* `Token.IsClosed`, `ReadsWhole.isClosed`: strings that are read are closed.
-/
import TinyLisp.Form.Levels
import TinyLisp.Proofs.Readable

namespace TinyLisp

/-! ### The pass -/

/-- Reads every form off some tokens while some lists are open: the forms that are completed, and
the fault that ends the pass. -/
def readEvery (opened : OpenLists) : List Token → List Value × Option ReadFault
  | [] => ([], if opened.isEmpty then none else some .unclosedList)
  | t :: rest =>
    match step opened t with
    | .more opened => readEvery opened rest
    | .done form => (form :: (readEvery [] rest).1, (readEvery [] rest).2)
    | .refused f => ([], some f)
    | .failed f => ([], some f)

@[simp] lemma readEvery_nil : readEvery [] [] = ([], none) := rfl

section

variable {opened opened' : OpenLists} {t : Token} {ts : List Token} {form : Value} {f : ReadFault}

lemma readEvery_more (h : step opened t = .more opened') :
    readEvery opened (t :: ts) = readEvery opened' ts := by
  simp only [readEvery, h]

lemma readEvery_done (h : step opened t = .done form) :
    readEvery opened (t :: ts) = (form :: (readEvery [] ts).1, (readEvery [] ts).2) := by
  simp only [readEvery, h]

lemma readEvery_refused (h : step opened t = .refused f) :
    readEvery opened (t :: ts) = ([], some f) := by
  simp only [readEvery, h]

lemma readEvery_failed (h : step opened t = .failed f) :
    readEvery opened (t :: ts) = ([], some f) := by
  simp only [readEvery, h]

lemma arrive_more_ne_nil {v : Value} (h : arrive v opened = .more opened') : opened' ≠ [] := by
  cases opened with
  | nil => nomatch h
  | cons items outer =>
      rw [← Step.more.inj h]
      exact List.cons_ne_nil _ _

/-- While a form goes on, one of its lists is open. -/
lemma step_more_ne_nil (h : step opened t = .more opened') : opened' ≠ [] := by
  unfold step at h
  split at h
  · rw [← Step.more.inj h]
    exact List.cons_ne_nil _ _
  · split at h
    · nomatch h
    · exact arrive_more_ne_nil h
  · split at h
    · exact arrive_more_ne_nil h
    · nomatch h
  all_goals
    split at h
    · exact arrive_more_ne_nil h
    · nomatch h

end

/-! ### The pass reads what a stream reads -/

namespace TokenStream

lemma remaining_of_peek {s : TokenStream} {t : Token} (h : s.peek.1 = some t) :
    s.remaining = t :: s.peek.2.advance.2.remaining := by
  rw [peek_fst] at h
  obtain ⟨rest, hrest⟩ := List.head?_eq_some_iff.mp h
  rw [remaining_advance, remaining_peek, hrest, List.tail_cons]

/-- The pass goes on behind a form that is read, and ends where a form fails. The two differ only
where no form has begun and no token is left: there a stream has no form, and the pass is done. -/
lemma readEvery_readOn (opened : OpenLists) (s : TokenStream)
    (hbegun : opened ≠ [] ∨ s.remaining ≠ []) :
    readEvery opened s.remaining =
      match readOn opened s with
      | (.ok form, rest) =>
        (form :: (readEvery [] rest.remaining).1, (readEvery [] rest.remaining).2)
      | (.error f, _) => ([], some f) := by
  fun_induction readOn opened s with
  | case1 opened s hpeek =>
      rw [peek_fst, List.head?_eq_none_iff] at hpeek
      have hopened : opened.isEmpty = false :=
        List.isEmpty_eq_false_iff.mpr (hbegun.resolve_right (absurd hpeek))
      simp only [hpeek, hopened, readEvery, Bool.false_eq_true, if_false]
  | case2 opened s t hpeek _ opened' hstep ih =>
      rw [remaining_of_peek hpeek, readEvery_more hstep]
      exact ih (.inl (step_more_ne_nil hstep))
  | case3 opened s t hpeek _ form hstep => rw [remaining_of_peek hpeek, readEvery_done hstep]
  | case4 opened s t hpeek _ f hstep => rw [remaining_of_peek hpeek, readEvery_refused hstep]
  | case5 opened s t hpeek _ f hstep => rw [remaining_of_peek hpeek, readEvery_failed hstep]

/-- The pass gives all forms of a stream, and the fault that ends them. -/
lemma readForms_eq (s : TokenStream) :
    (s.readForms.1, s.readForms.2.1) = readEvery [] s.remaining := by
  fun_induction readForms s with
  | case1 s hpeek =>
      rw [peek_fst, List.head?_eq_none_iff] at hpeek
      rw [hpeek]
      rfl
  | case2 s t hpeek f rest hform =>
      have hbegun : s.peek.2.remaining ≠ [] := by
        rw [remaining_peek, remaining_of_peek hpeek]
        exact List.cons_ne_nil _ _
      have hpass := readEvery_readOn [] s.peek.2 (.inr hbegun)
      rw [← readForm, hform, remaining_peek] at hpass
      exact hpass.symm
  | case3 s t hpeek form rest hform _ forms fault rest' hforms ih =>
      have hbegun : s.peek.2.remaining ≠ [] := by
        rw [remaining_peek, remaining_of_peek hpeek]
        exact List.cons_ne_nil _ _
      have hpass := readEvery_readOn [] s.peek.2 (.inr hbegun)
      rw [← readForm, hform, remaining_peek] at hpass
      rw [hforms] at ih
      rw [hpass]
      simp only [← ih]

end TokenStream

/-! ### Passes that end well -/

/-- The passes that take every token and end between two forms. -/
inductive ReadsWhole : OpenLists → List Token → List Value → Prop
  | nil : ReadsWhole [] [] []
  | more {opened next t ts forms} (hstep : step opened t = .more next)
      (hrest : ReadsWhole next ts forms) : ReadsWhole opened (t :: ts) forms
  | done {opened t ts form forms} (hstep : step opened t = .done form)
      (hrest : ReadsWhole [] ts forms) : ReadsWhole opened (t :: ts) (form :: forms)

lemma ReadsWhole.readEvery_eq {opened : OpenLists} {ts : List Token} {forms : List Value}
    (h : ReadsWhole opened ts forms) : readEvery opened ts = (forms, none) := by
  induction h with
  | nil => rfl
  | more hstep _ ih => rw [readEvery_more hstep, ih]
  | done hstep _ ih => rw [readEvery_done hstep, ih]

/-- A pass without a fault is one that ends well. -/
lemma readsWhole_of_readEvery {opened : OpenLists} {ts : List Token} {forms : List Value}
    (h : readEvery opened ts = (forms, none)) : ReadsWhole opened ts forms := by
  induction ts generalizing opened forms with
  | nil =>
      cases opened with
      | nil =>
          rw [← (Prod.mk.inj h).1]
          exact .nil
      | cons items outer => nomatch (Prod.mk.inj h).2
  | cons t ts ih =>
      cases hstep : step opened t with
      | more next =>
          rw [readEvery_more hstep] at h
          exact .more hstep (ih h)
      | done form =>
          rw [readEvery_done hstep] at h
          obtain ⟨rfl, hnone⟩ := Prod.mk.inj h
          exact .done hstep (ih (Prod.ext rfl hnone))
      | refused f =>
          rw [readEvery_refused hstep] at h
          nomatch (Prod.mk.inj h).2
      | failed f =>
          rw [readEvery_failed hstep] at h
          nomatch (Prod.mk.inj h).2

/-- The fault of a pass is the fault of reading the text. -/
lemma readAll_eq_error {source : String} {forms : List Value} {f : ReadFault}
    (h : readEvery [] (Token.ofSource source) = (forms, some f)) : readAll source = .error f := by
  have hforms := TokenStream.readForms_eq (.ofList (Token.ofSource source))
  rw [TokenStream.remaining_ofList, h] at hforms
  rw [readAll]
  split
  · next heq =>
      rw [heq] at hforms
      rw [Option.some.inj (Prod.mk.inj hforms).2]
  all_goals
    next heq =>
    rw [heq] at hforms
    nomatch (Prod.mk.inj hforms).2

/-- The forms of a text are those of a pass that ends well, of which there is at least one. -/
theorem readAll_eq_ok_iff {source : String} {forms : List Value} :
    readAll source = .ok forms ↔ ReadsWhole [] (Token.ofSource source) forms ∧ forms ≠ [] := by
  have hpass : readAll source = .ok forms ↔
      readEvery [] (Token.ofSource source) = (forms, none) ∧ forms ≠ [] := by
    have hforms := TokenStream.readForms_eq (.ofList (Token.ofSource source))
    rw [TokenStream.remaining_ofList] at hforms
    rw [← hforms, readAll]
    split
    · next heq => simp [heq]
    · next heq => simp [heq, eq_comm]
    · next forms' rest hne heq =>
        simp only [heq, Except.ok.injEq, Prod.mk.injEq, and_true]
        refine ⟨?_, And.left⟩
        rintro rfl
        exact ⟨rfl, hne⟩
  rw [hpass]
  exact and_congr_left fun _ => ⟨readsWhole_of_readEvery, ReadsWhole.readEvery_eq⟩

/-- The forms of a text, by a pass over its tokens. -/
lemma readAll_of_tokens {source : String} {ts : List Token} {forms : List Value}
    (htokens : Token.ofSource source = ts) (hpass : readEvery [] ts = (forms, none))
    (hne : forms ≠ []) : readAll source = .ok forms :=
  readAll_eq_ok_iff.mpr ⟨readsWhole_of_readEvery (htokens ▸ hpass), hne⟩

section

variable {opened : OpenLists} {ts : List Token} {forms : List Value}

/-- **A pass that ends well** goes on with the tokens behind it as from the start. -/
theorem ReadsWhole.readEvery_append (h : ReadsWhole opened ts forms) (ts' : List Token) :
    readEvery opened (ts ++ ts') = (forms ++ (readEvery [] ts').1, (readEvery [] ts').2) := by
  induction h with
  | nil => rfl
  | more hstep _ ih => rw [List.cons_append, readEvery_more hstep, ih]
  | done hstep _ ih => rw [List.cons_append, readEvery_done hstep, ih, List.cons_append]

/-- A pass that ends well, and another one behind it. -/
lemma ReadsWhole.append {ts' : List Token} {forms' : List Value} (h : ReadsWhole opened ts forms)
    (h' : ReadsWhole [] ts' forms') : ReadsWhole opened (ts ++ ts') (forms ++ forms') := by
  refine readsWhole_of_readEvery ?_
  rw [h.readEvery_append, h'.readEvery_eq]

/-- A token that is closed, if it is a string. -/
def Token.IsClosed (t : Token) : Prop :=
  t.kind = .string → (stringBody? t.text).isSome

lemma isClosed_of_step (opened : OpenLists) {t : Token}
    (h : ∀ f, step opened t ≠ .failed f) : t.IsClosed := by
  intro hkind
  cases hbody : stringBody? t.text with
  | some text => rfl
  | none => exact absurd (by simp only [step, hkind, hbody]) (h (.unclosedString t.text))

/-- Every string of a pass that ends well is closed. -/
lemma ReadsWhole.isClosed (h : ReadsWhole opened ts forms) : ∀ t ∈ ts, t.IsClosed := by
  induction h with
  | nil => exact nofun
  | @more opened next t _ _ hstep _ ih =>
      exact List.forall_mem_cons.mpr ⟨isClosed_of_step opened (by simp [hstep]), ih⟩
  | @done opened t _ form _ hstep _ ih =>
      exact List.forall_mem_cons.mpr ⟨isClosed_of_step opened (by simp [hstep]), ih⟩

end

/-! ### Levels of nesting -/

/-- The lists that are open behind a token that is taken; none is open behind a form. -/
inductive Step.LeavesOpen : Step → OpenLists → Prop
  | more (next : OpenLists) : LeavesOpen (.more next) next
  | done (form : Value) : LeavesOpen (.done form) []

/-- An item that arrives closes no list, so the form that it completes is in none. -/
lemma length_of_arrive {v : Value} {opened next : OpenLists}
    (h : (arrive v opened).LeavesOpen next) : next.length = opened.length := by
  cases opened with
  | nil =>
      cases h
      rfl
  | cons items outer =>
      cases h
      rfl

/-- Reading goes down at least as far as it is. -/
lemma le_readLevels (depth : ℕ) (ts : List Token) : depth ≤ readLevels depth ts := by
  induction ts with
  | nil => exact le_rfl
  | cons t ts ih =>
      unfold readLevels
      split
      · exact le_max_left _ _
      · split
        · omega
        · exact le_max_left _ _
      all_goals
        split
        · exact ih
        · exact le_rfl

/-- Reading goes on from the lists that a token leaves open. -/
lemma readLevels_cons {opened next : OpenLists} {t : Token} (h : (step opened t).LeavesOpen next)
    (ts : List Token) :
    readLevels opened.length (t :: ts) = max opened.length (readLevels next.length ts) := by
  have harrived {v : Value} (harrive : (arrive v opened).LeavesOpen next) :
      readLevels opened.length ts = max opened.length (readLevels next.length ts) := by
    rw [length_of_arrive harrive, max_eq_right (le_readLevels _ _)]
  obtain ⟨kind, text⟩ := t
  cases kind with
  | openParen =>
      cases h
      rfl
  | closeParen =>
      cases opened with
      | nil => cases h
      | cons items outer =>
          rw [length_of_arrive h]
          rfl
  | string =>
      simp only [step, readLevels] at h ⊢
      cases hbody : stringBody? text with
      | none =>
          rw [hbody] at h
          cases h
      | some body =>
          rw [hbody] at h
          exact harrived h
  | atom | other name =>
      simp only [step, readLevels] at h ⊢
      cases hread : readAtom text with
      | error f =>
          rw [hread] at h
          cases h
      | ok v =>
          rw [hread] at h
          exact harrived h

/-- **The levels of nesting** behind a pass that ends well are those from the start. -/
theorem ReadsWhole.readLevels_append {opened : OpenLists} {ts : List Token} {forms : List Value}
    (h : ReadsWhole opened ts forms) (ts' : List Token) :
    readLevels opened.length (ts ++ ts') =
      max (readLevels opened.length ts) (readLevels 0 ts') := by
  induction h with
  | nil => exact (Nat.zero_max _).symm
  | more hstep _ ih =>
      have hleaves := hstep ▸ Step.LeavesOpen.more _
      rw [List.cons_append, readLevels_cons hleaves, readLevels_cons hleaves, ih, max_assoc]
  | done hstep _ ih =>
      have hleaves := hstep ▸ Step.LeavesOpen.done _
      rw [List.cons_append, readLevels_cons hleaves, readLevels_cons hleaves, ih, max_assoc]

end TinyLisp
