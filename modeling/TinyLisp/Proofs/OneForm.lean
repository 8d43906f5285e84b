/-
The tokens of one form.

Reading a form takes the tokens up to the one that completes it, and looks at no
token behind them. So the tokens that a form takes are a beginning of the tokens
to come, whatever follows them is left as it was, and no shorter beginning is a
form: there the tokens end inside a list.

* `TokenStream.readOn_of_remaining`: only the tokens to come matter, not which
  of them are held.
* `TokenStream.HoldsAtMostOne.readForm_eq`: a stream that holds at most one of
  them is read as one that holds none.
* `ReadsForm`: the tokens that complete a form while some lists are open.
* `exists_readsForm`: a form that is read takes such tokens.
* `ReadsForm.readOn_append`, `ReadsForm.readOn_prefix`: reading those tokens with
  others behind them, and reading a shorter beginning of them.
* `readFirst_of_readAll`, `readAll_of_readFirst_error`: the first form of a text
  beside all of them.
* `form_takes_its_own_tokens` (**reading is local and prefix-free**).
-/
import TinyLisp.Proofs.DepthScan

namespace TinyLisp

open TokenStream Token

/-! ### Only the tokens to come matter -/

namespace TokenStream

/-- **Reading depends on the tokens to come** alone, however many of them are held. -/
lemma readOn_of_remaining (opened : OpenLists) {s s' : TokenStream}
    (h : s'.remaining = s.remaining) :
    (readOn opened s').1 = (readOn opened s).1 ∧
      (readOn opened s').2.remaining = (readOn opened s).2.remaining := by
  fun_induction readOn opened s generalizing s' with
  | case1 opened s hpeek =>
      rw [readOn_eq, peek_fst, h, ← peek_fst, hpeek]
      exact ⟨rfl, by simp [h]⟩
  | case2 opened s t hpeek _ opened' hstep ih =>
      rw [readOn_eq, peek_fst, h, ← peek_fst, hpeek]
      simp only [hstep]
      exact ih (by simp [h])
  | case3 opened s t hpeek _ _ hstep | case4 opened s t hpeek _ _ hstep
  | case5 opened s t hpeek _ _ hstep =>
      rw [readOn_eq, peek_fst, h, ← peek_fst, hpeek]
      simp [hstep, h]

lemma readForm_of_remaining {s : TokenStream} {ts : List Token} (h : s.remaining = ts) :
    s.readForm.1 = (ofList ts).readForm.1 ∧
      s.readForm.2.remaining = (ofList ts).readForm.2.remaining :=
  readOn_of_remaining [] h

lemma HoldsAtMostOne.peek_eq :
    ∀ {s : TokenStream}, s.HoldsAtMostOne → s.peek = (ofList s.remaining).peek
  | ⟨[], []⟩, _ => rfl
  | ⟨[], _ :: _⟩, _ => rfl
  | ⟨[_], _⟩, _ => rfl
  | ⟨_ :: _ :: _, _⟩, h => absurd h (by simp [HoldsAtMostOne])

/-- Peeking does away with the difference between a token that is held and one that is not. -/
lemma HoldsAtMostOne.readForm_eq {s : TokenStream} (h : s.HoldsAtMostOne) :
    s.readForm = (ofList s.remaining).readForm := by
  rw [readForm, readForm, readOn_eq, readOn_eq [] (ofList s.remaining), h.peek_eq]

lemma eq_ofList_nil : ∀ {s : TokenStream}, s.remaining = [] → s = ofList []
  | ⟨[], []⟩, _ => rfl

lemma readOn_nil (opened : OpenLists) :
    readOn opened (ofList []) =
      (.error (if opened.isEmpty then .noForm else .unclosedList), ofList []) := by
  rw [readOn_eq]
  rfl

end TokenStream

/-! ### The tokens of a form -/

/-- The tokens that complete a form of which some lists are open, the last of them included. -/
inductive ReadsForm : OpenLists → List Token → Value → Prop
  | done {opened t form} (hstep : step opened t = .done form) : ReadsForm opened [t] form
  | more {opened next t ts form} (hstep : step opened t = .more next)
      (hrest : ReadsForm next ts form) : ReadsForm opened (t :: ts) form

section

variable {opened : OpenLists} {p : List Token} {form : Value}

lemma ReadsForm.ne_nil (h : ReadsForm opened p form) : p ≠ [] := by
  cases h <;> exact List.cons_ne_nil _ _

/-- A form that is read takes the tokens that complete it. -/
lemma exists_readsForm {s rest : TokenStream} (h : readOn opened s = (.ok form, rest)) :
    ∃ p, ReadsForm opened p form ∧ s.remaining = p ++ rest.remaining := by
  fun_induction readOn opened s with
  | case1 => simp at h
  | case2 opened s t hpeek _ next hstep ih =>
      obtain ⟨p, hp, hremaining⟩ := ih h
      exact ⟨t :: p, .more hstep hp, by rw [remaining_of_peek hpeek, hremaining, List.cons_append]⟩
  | case3 opened s t hpeek _ form' hstep =>
      obtain ⟨hform, rfl⟩ := Prod.mk.inj h
      obtain rfl := Except.ok.inj hform
      exact ⟨[t], .done hstep, remaining_of_peek hpeek⟩
  | case4 => simp at h
  | case5 => simp at h

/-- **What stands behind a form** is neither looked at nor taken. -/
theorem ReadsForm.readOn_append (h : ReadsForm opened p form) (r : List Token) :
    readOn opened (ofList (p ++ r)) = (.ok form, ofList r) := by
  induction h with
  | done hstep => exact readOn_done hstep
  | more hstep _ ih => rw [List.cons_append, readOn_more hstep, ih]

/-- **A shorter beginning** of the tokens of a form is no form: it has no token at all, or it ends
inside a list. -/
theorem ReadsForm.readOn_prefix (h : ReadsForm opened p form) {q : List Token} (hq : q <+: p)
    (hne : q ≠ p) :
    readOn opened (ofList q) =
      (.error (if opened = [] ∧ q = [] then .noForm else .unclosedList), ofList []) := by
  induction h generalizing q with
  | @done opened t form hstep =>
      obtain rfl : q = [] := by
        rcases List.prefix_cons_iff.mp hq with rfl | ⟨q', rfl, hq'⟩
        · rfl
        · rw [List.prefix_nil.mp hq'] at hne
          exact absurd rfl hne
      simp [readOn_nil]
  | @more opened next t ts form hstep _ ih =>
      rcases List.prefix_cons_iff.mp hq with rfl | ⟨q', rfl, hq'⟩
      · simp [readOn_nil]
      · have hne' : q' ≠ ts := fun heq => hne (by rw [heq])
        rw [readOn_more hstep, ih hq' hne']
        simp [step_more_ne_nil hstep]

end

/-! ### The first form of a text and all of them -/

section

variable {source : String}

lemma readFirst_eq (source : String) :
    readFirst source = (readOn [] (ofList (ofSource source))).1 := rfl

/-- The first of all forms of a text is the first form of the text. -/
lemma readFirst_of_readAll {form : Value} {forms : List Value}
    (h : readAll source = .ok (form :: forms)) : readFirst source = .ok form := by
  have hwhole := (readAll_eq_ok_iff.mp h).1.readEvery_eq
  have hbegun : ofSource source ≠ [] := by
    intro hnil
    rw [hnil, readEvery_nil] at hwhole
    nomatch hwhole
  have hpass := readEvery_readOn [] (ofList (ofSource source)) (.inr hbegun)
  rw [remaining_ofList, hwhole] at hpass
  rw [readFirst_eq]
  split at hpass
  · next heq =>
      rw [heq, (List.cons.inj (Prod.mk.inj hpass).1).1]
  · nomatch (Prod.mk.inj hpass).2

/-- A text without a first form cannot be read at all, for the same reason. -/
lemma readAll_of_readFirst_error {f : ReadFault} (h : readFirst source = .error f) :
    readAll source = .error f := by
  rw [readFirst_eq] at h
  by_cases hbegun : ofSource source = []
  · rw [hbegun, readOn_nil] at h
    obtain rfl : .noForm = f := Except.error.inj h
    exact readAll_of_no_tokens hbegun
  · have hpass := readEvery_readOn [] (ofList (ofSource source)) (.inr hbegun)
    rw [remaining_ofList] at hpass
    split at hpass
    · next heq =>
        rw [heq] at h
        nomatch h
    · next g rest heq =>
        rw [heq] at h
        obtain rfl := Except.error.inj h
        exact readAll_eq_error hpass

end

/-! ### Locality -/

/-- **Reading is local and prefix-free.** A form that is read from a stream takes a beginning of
the tokens to come that is not empty. Every shorter beginning fails, because there is no token or
because the tokens end inside a list, and before any other tokens the same form is read and those
tokens are left, none of them held if at most one was. So the first of all forms of a text is its
first form, a text without a first form has no forms for the same reason, and the first form of a
text is that of every text whose tokens begin with the tokens of the form. -/
theorem form_takes_its_own_tokens :
    (∀ (s rest : TokenStream) (form : Value), s.readForm = (.ok form, rest) →
      ∃ p, p ≠ [] ∧ s.remaining = p ++ rest.remaining ∧
        (∀ q, q <+: p → q ≠ p → ∀ s' : TokenStream, s'.remaining = q →
          s'.readForm = (.error (if q = [] then .noForm else .unclosedList), ofList [])) ∧
        ∀ (r : List Token) (s' : TokenStream), s'.remaining = p ++ r →
          ∃ rest', s'.readForm = (.ok form, rest') ∧ rest'.remaining = r ∧
            (s'.HoldsAtMostOne → rest' = ofList r)) ∧
    ∀ source : String,
      (∀ forms, readAll source = .ok forms →
        ∃ form others, forms = form :: others ∧ readFirst source = .ok form) ∧
      (∀ f, readFirst source = .error f → readAll source = .error f) ∧
      ∀ form, readFirst source = .ok form →
        ∃ p r, ofSource source = p ++ r ∧
          (ofList (ofSource source)).readForm = (.ok form, ofList r) ∧
          ∀ source', p <+: ofSource source' → readFirst source' = .ok form := by
  refine ⟨fun s rest form h => ?_, fun source => ⟨fun forms hread => ?_,
    fun f => readAll_of_readFirst_error, fun form hread => ?_⟩⟩
  · obtain ⟨p, hp, hremaining⟩ := exists_readsForm h
    -- other streams are compared with one of the same tokens of which none is held
    refine ⟨p, hp.ne_nil, hremaining, fun q hq hne s' hs' => ?_, fun r s' hs' => ?_⟩
    · have hshorter : (ofList q).readForm = _ := hp.readOn_prefix hq hne
      obtain ⟨hfault, hrest⟩ := readForm_of_remaining hs'
      rw [hshorter] at hfault hrest
      exact Prod.ext (by simpa using hfault) (eq_ofList_nil hrest)
    · have happend : (ofList (p ++ r)).readForm = (.ok form, ofList r) := hp.readOn_append r
      obtain ⟨hform, hrest⟩ := readForm_of_remaining hs'
      rw [happend] at hform hrest
      refine ⟨s'.readForm.2, Prod.ext hform rfl, hrest, fun hholds => ?_⟩
      rw [hholds.readForm_eq, hs', happend]
  · obtain ⟨form, others, rfl⟩ := List.exists_cons_of_ne_nil (readAll_eq_ok_iff.mp hread).2
    exact ⟨form, others, rfl, readFirst_of_readAll hread⟩
  · obtain ⟨rest, hform⟩ : ∃ rest, readOn [] (ofList (ofSource source)) = (.ok form, rest) :=
      ⟨_, Prod.ext hread rfl⟩
    obtain ⟨p, hp, htokens⟩ := exists_readsForm hform
    rw [remaining_ofList] at htokens
    refine ⟨p, rest.remaining, htokens, ?_, ?_⟩
    · rw [htokens, readForm, hp.readOn_append]
    · rintro source' ⟨r, hr⟩
      rw [readFirst_eq, ← hr, hp.readOn_append]

/-- A list in front of a closing parenthesis that closes nothing. -/
theorem list_before_stray_close :
    let close : Token := ⟨.closeParen, ")"⟩
    let s := ofList [⟨.openParen, "("⟩, ⟨.atom, "a"⟩, close, close]
    s.readForm = (.ok (.list [.sym "a"]), ofList [close]) ∧
      ∃ p, p ≠ [] ∧ s.remaining = p ++ [close] ∧
        ∀ r, (ofList (p ++ r)).readForm = (.ok (.list [.sym "a"]), ofList r) := by
  intro close s
  have hread : s.readForm = (.ok (.list [.sym "a"]), ofList [close]) :=
    (readOn_more rfl).trans ((readOn_more rfl).trans (readOn_done rfl))
  obtain ⟨p, hne, hremaining, -, hbehind⟩ := form_takes_its_own_tokens.1 s _ _ hread
  refine ⟨hread, p, hne, hremaining, fun r => ?_⟩
  obtain ⟨rest, hform, -, hrest⟩ := hbehind r (ofList (p ++ r)) rfl
  rw [hform, hrest (holdsAtMostOne_ofList _)]

end TinyLisp
