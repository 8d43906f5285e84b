/-
A stream against a cursor.

A stream that is peeked at, advanced and read from in any order, with failing
steps among them, answers as a cursor does that moves over the fixed list of its
tokens. It never holds more than one token, and this is the one at the cursor, so
holding it never shows: a token is taken by exactly one step, and peeking takes
none.

* `StreamStep`, `StreamAnswer`, `TokenStream.perform`: what is done with a stream.
* `performAt`: the same with a cursor, `performAll` many steps of either.
* `HoldsAtMostOne.readOn`, `HoldsAtMostOne.perform`: no token is drawn before
  those that are held are taken, so no step holds a second one.
* `StandsAt`, `StandsAt.perform`, `StandsAt.performAll`: the stream stands at the
  position of the cursor, after one step and after all.
* `Uses`, `UsesAll`, `exists_usesAll`: the tokens that the steps take, one after
  the other.
* `performAll_eraseIdx`: a step that changes nothing can be left out.
* `stream_refines_cursor` (**a stream is a cursor**).
-/
import TinyLisp.Proofs.RecursiveDescent

namespace TinyLisp

open TokenStream

/-! ### What is done with a stream -/

/-- What is done with a stream: peeking, advancing, and reading the next form or all of them. -/
inductive StreamStep where
  | peek
  | advance
  | readForm
  | readForms

/-- What a stream answers: a token, if there is one; a form, or its fault; or all forms, and the
fault that ends them. -/
inductive StreamAnswer where
  | token (t : Option Token)
  | form (result : Except ReadFault Value)
  | forms (forms : List Value) (fault : Option ReadFault)

/-- One step of a stream. -/
def TokenStream.perform (s : TokenStream) : StreamStep → StreamAnswer × TokenStream
  | .peek => (.token s.peek.1, s.peek.2)
  | .advance => (.token s.advance.1, s.advance.2)
  | .readForm => (.form s.readForm.1, s.readForm.2)
  | .readForms => (.forms s.readForms.1 s.readForms.2.1, s.readForms.2.2)

/-- One step of a cursor over a fixed list: peeking leaves it, advancing moves it past its token,
and reading moves it as far as the descent goes. -/
def performAt (tokens : List Token) (p : ℕ) : StreamStep → StreamAnswer × ℕ
  | .peek => (.token tokens[p]?, p)
  | .advance => (.token tokens[p]?, if p < tokens.length then p + 1 else p)
  | .readForm =>
    match formAt tokens p with
    | .read v q _ => (.form (.ok v), q)
    | .failed f q => (.form (.error f), q)
  | .readForms => (.forms (formsAt tokens p).1 (formsAt tokens p).2.1, (formsAt tokens p).2.2)

section

variable {σ : Type} {perform : σ → StreamStep → StreamAnswer × σ}

/-- Many steps, one after the other: their answers, and the state after them. -/
def performAll (perform : σ → StreamStep → StreamAnswer × σ) (s : σ) :
    List StreamStep → List StreamAnswer × σ
  | [] => ([], s)
  | step :: rest =>
    ((perform s step).1 :: (performAll perform (perform s step).2 rest).1,
      (performAll perform (perform s step).2 rest).2)

/-- **A step that changes nothing** can be left out, and no other answer changes. -/
lemma performAll_eraseIdx {step : StreamStep} (hidle : ∀ s, (perform s step).2 = s) (s : σ)
    {steps : List StreamStep} {i : ℕ} (hi : steps[i]? = some step) :
    performAll perform s (steps.eraseIdx i) =
      ((performAll perform s steps).1.eraseIdx i, (performAll perform s steps).2) := by
  induction steps generalizing s i with
  | nil => simp at hi
  | cons first rest ih =>
      cases i with
      | zero =>
          obtain rfl : first = step := Option.some.inj hi
          simp only [performAll, List.eraseIdx_cons_zero, hidle]
      | succ i =>
          rw [List.getElem?_cons_succ] at hi
          simp only [performAll, List.eraseIdx_cons_succ, ih _ hi]

end

/-! ### The held tokens -/

namespace TokenStream.HoldsAtMostOne

variable {s : TokenStream}

/-- Each token of a form is peeked at and then taken, or left as the one that is held. -/
lemma readOn (opened : OpenLists) (h : s.HoldsAtMostOne) :
    (readOn opened s).2.HoldsAtMostOne := by
  fun_induction TokenStream.readOn opened s with
  | case1 | case4 => exact h.peek
  | case2 _ _ _ _ _ _ _ ih => exact ih h.peek.advance
  | case3 | case5 => exact h.peek.advance

lemma readForms (h : s.HoldsAtMostOne) : s.readForms.2.2.HoldsAtMostOne := by
  fun_induction TokenStream.readForms s with
  | case1 => exact h.peek
  | case2 s t _ f rest hform =>
      have hrest := h.peek.readOn []
      rwa [← readForm, hform] at hrest
  | case3 s t _ form rest hform _ forms fault rest' hforms ih =>
      have hrest := h.peek.readOn []
      rw [← readForm, hform] at hrest
      rw [hforms] at ih
      exact ih hrest

/-- **One step** holds no second token. -/
lemma perform (h : s.HoldsAtMostOne) (step : StreamStep) :
    (s.perform step).2.HoldsAtMostOne := by
  cases step with
  | peek => exact h.peek
  | advance => exact h.advance
  | readForm => exact h.readOn []
  | readForms => exact h.readForms

end TokenStream.HoldsAtMostOne

/-! ### A stream at a position -/

/-- A stream stands at a position of a list: the tokens from there on are to come, and at most one
of them is held. -/
structure StandsAt (tokens : List Token) (s : TokenStream) (p : ℕ) : Prop where
  remaining_eq : s.remaining = tokens.drop p
  le_length : p ≤ tokens.length
  holds : s.HoldsAtMostOne

section

variable {tokens : List Token} {p q : ℕ}

lemma FailsAt.le_length {f : ReadFault} (h : FailsAt tokens p f q) (hp : p ≤ tokens.length) :
    q ≤ tokens.length := by
  cases h with
  | noForm | strayClose => exact hp
  | inside h =>
      cases h with
      | unclosedList => exact le_rfl
      | unclosedString _ ht | longNumeral _ ht => exact (List.getElem?_eq_some_iff.mp ht).1

lemma formsAt_le_length (hp : p ≤ tokens.length) : (formsAt tokens p).2.2 ≤ tokens.length := by
  fun_induction formsAt tokens p with
  | case1 => exact hp
  | case2 p t hsome _ f q hlanding =>
      have hform := endsBy_formAt tokens p hp
      rw [hlanding] at hform
      exact FailsAt.le_length hform hp
  | case3 p t hsome _ v q _ hlanding ih =>
      have hform := endsBy_formAt tokens p hp
      rw [hlanding] at hform
      exact ih hform

namespace StandsAt

variable {s : TokenStream}

lemma start (tokens : List Token) : StandsAt tokens (ofList tokens) 0 :=
  ⟨rfl, Nat.zero_le _, holdsAtMostOne_ofList tokens⟩

lemma head?_eq (h : StandsAt tokens s p) : s.remaining.head? = tokens[p]? := by
  rw [h.remaining_eq, List.head?_drop]

/-- The token that is held is the one at the position. -/
lemma eq_or_eq (h : StandsAt tokens s p) :
    s = ⟨[], tokens.drop p⟩ ∨
      ∃ t, tokens[p]? = some t ∧ s = ⟨[t], tokens.drop (p + 1)⟩ := by
  have hremaining := h.remaining_eq
  obtain ⟨held, pending⟩ := s
  rcases held with - | ⟨t, - | ⟨t', held⟩⟩
  · exact .inl (congrArg _ hremaining)
  · have hhead : tokens[p]? = some t := by rw [← h.head?_eq]; rfl
    rw [drop_eq_cons hhead] at hremaining
    exact .inr ⟨t, hhead, congrArg _ (List.cons.inj hremaining).2⟩
  · exact absurd h.holds (by simp [HoldsAtMostOne])

/-- Where a form fails, the stream stands behind it. -/
lemma readForm_failed {f : ReadFault} (h : StandsAt tokens s p)
    (hlanding : formAt tokens p = .failed f q) :
    s.readForm.1 = .error f ∧ StandsAt tokens s.readForm.2 q ∧ FailsAt tokens p f q := by
  obtain ⟨hfault, hremaining⟩ := readForm_meets_formAt h.remaining_eq
  have hends := endsBy_formAt tokens p h.le_length
  rw [hlanding] at hfault hremaining hends
  exact ⟨hfault, ⟨hremaining, FailsAt.le_length hends h.le_length, h.holds.readOn []⟩, hends⟩

/-- **One step**: the stream answers as the cursor, and stands where the cursor is. -/
theorem perform (h : StandsAt tokens s p) (step : StreamStep) :
    (s.perform step).1 = (performAt tokens p step).1 ∧
      StandsAt tokens (s.perform step).2 (performAt tokens p step).2 := by
  cases step with
  | peek =>
      refine ⟨congrArg StreamAnswer.token ?_, ?_, h.le_length, h.holds.peek⟩
      · rw [peek_fst, h.head?_eq]
      · exact (remaining_peek s).trans h.remaining_eq
  | advance =>
      refine ⟨congrArg StreamAnswer.token ?_, ?_⟩
      · rw [advance_fst, h.head?_eq]
      · have hremaining : s.advance.2.remaining = tokens.drop (p + 1) := by
          rw [remaining_advance, h.remaining_eq, List.tail_drop]
        simp only [TokenStream.perform, performAt]
        split
        · next hlt => exact ⟨hremaining, hlt, h.holds.advance⟩
        · next hge =>
            have hle := Nat.not_lt.mp hge
            rw [List.drop_eq_nil_of_le (hle.trans p.le_succ)] at hremaining
            exact ⟨hremaining.trans (List.drop_eq_nil_of_le hle).symm, h.le_length,
              h.holds.advance⟩
  | readForm =>
      simp only [TokenStream.perform, performAt]
      cases hlanding : formAt tokens p with
      | read v q hq =>
          obtain ⟨hform, hremaining⟩ := readForm_meets_formAt h.remaining_eq
          have hends := endsBy_formAt tokens p h.le_length
          rw [hlanding] at hform hremaining hends
          exact ⟨congrArg StreamAnswer.form hform, hremaining, hends, h.holds.readOn []⟩
      | failed f q =>
          obtain ⟨hfault, hstands, -⟩ := h.readForm_failed hlanding
          exact ⟨congrArg StreamAnswer.form hfault, hstands⟩
  | readForms =>
      obtain ⟨hforms, hfault, hremaining⟩ := readForms_meets_formsAt h.remaining_eq
      refine ⟨?_, hremaining, formsAt_le_length h.le_length, h.holds.readForms⟩
      simp only [TokenStream.perform, performAt, hforms, hfault]

/-- **All steps**: the stream answers as the cursor, and stands where the cursor is. -/
theorem performAll (h : StandsAt tokens s p) (steps : List StreamStep) :
    (performAll TokenStream.perform s steps).1 = (performAll (performAt tokens) p steps).1 ∧
      StandsAt tokens (performAll TokenStream.perform s steps).2
        (performAll (performAt tokens) p steps).2 := by
  induction steps generalizing s p with
  | nil => exact ⟨rfl, h⟩
  | cons step rest ih =>
      obtain ⟨hanswer, hstep⟩ := h.perform step
      obtain ⟨hanswers, hrest⟩ := ih hstep
      exact ⟨congrArg₂ List.cons hanswer hanswers, hrest⟩

end StandsAt

end

/-! ### The tokens that steps take -/

/-- The tokens that one step takes: none by peeking, the token that advancing answers, and the
tokens of the forms that are read. Where reading fails, there may be others behind the forms. -/
inductive Uses : StreamStep → StreamAnswer → List Token → Prop
  | peek (t) : Uses .peek (.token t) []
  | advance (t : Option Token) : Uses .advance (.token t) t.toList
  | form {v taken} (h : ReadsForm [] taken v) : Uses .readForm (.form (.ok v)) taken
  | formFailed (f taken) : Uses .readForm (.form (.error f)) taken
  | forms {forms shares} (h : List.Forall₂ (ReadsForm []) shares forms) :
      Uses .readForms (.forms forms none) shares.flatten
  | formsFailed {forms shares} (h : List.Forall₂ (ReadsForm []) shares forms) (f taken) :
      Uses .readForms (.forms forms (some f)) (shares.flatten ++ taken)

/-- The tokens that many steps take, each behind those of the steps before. -/
inductive UsesAll : List StreamStep → List StreamAnswer → List Token → Prop
  | nil : UsesAll [] [] []
  | cons {step answer taken steps answers others} (h : Uses step answer taken)
      (hrest : UsesAll steps answers others) :
      UsesAll (step :: steps) (answer :: answers) (taken ++ others)

/-- Reading on leaves an end of the tokens to come. -/
lemma exists_taken (opened : OpenLists) (s : TokenStream) :
    ∃ taken, s.remaining = taken ++ (readOn opened s).2.remaining := by
  fun_induction readOn opened s with
  | case1 _ s hpeek => exact ⟨[], (remaining_peek s).symm⟩
  | case2 _ s t hpeek _ _ _ ih =>
      obtain ⟨taken, htaken⟩ := ih
      exact ⟨t :: taken, by rw [remaining_of_peek hpeek, htaken, List.cons_append]⟩
  | case3 _ s t hpeek | case5 _ s t hpeek => exact ⟨[t], remaining_of_peek hpeek⟩
  | case4 _ s t hpeek => exact ⟨[], (remaining_peek s).symm⟩

/-- Reading all forms takes the tokens of each of them, and more only where it fails. -/
lemma exists_uses_readForms (s : TokenStream) :
    ∃ taken, Uses .readForms (.forms s.readForms.1 s.readForms.2.1) taken ∧
      s.remaining = taken ++ s.readForms.2.2.remaining := by
  fun_induction readForms s with
  | case1 s hpeek => exact ⟨[], .forms .nil, (remaining_peek s).symm⟩
  | case2 s t hpeek f rest hform =>
      obtain ⟨taken, htaken⟩ := exists_taken [] s.peek.2
      rw [← readForm, hform, remaining_peek] at htaken
      exact ⟨taken, .formsFailed .nil f taken, htaken⟩
  | case3 s t hpeek form rest hform _ forms fault rest' hforms ih =>
      obtain ⟨share, hshare, hremaining⟩ := exists_readsForm hform
      obtain ⟨taken, huses, hrest⟩ := ih
      rw [hforms] at huses hrest
      rw [remaining_peek, hrest, ← List.append_assoc] at hremaining
      refine ⟨share ++ taken, ?_, hremaining⟩
      cases huses with
      | forms h => exact .forms (.cons hshare h)
      | formsFailed h f others =>
          rw [← List.append_assoc]
          exact .formsFailed (.cons hshare h) f others

/-- **One step** takes a beginning of the tokens to come. -/
lemma exists_uses (s : TokenStream) (step : StreamStep) :
    ∃ taken, Uses step (s.perform step).1 taken ∧
      s.remaining = taken ++ (s.perform step).2.remaining := by
  cases step with
  | peek => exact ⟨[], .peek _, (remaining_peek s).symm⟩
  | advance =>
      refine ⟨s.advance.1.toList, .advance _, ?_⟩
      rw [TokenStream.perform, advance_fst, remaining_advance]
      cases s.remaining <;> rfl
  | readForm =>
      rcases hread : s.readForm with ⟨result, rest⟩
      rw [TokenStream.perform, hread]
      cases result with
      | ok v =>
          obtain ⟨taken, htaken, hremaining⟩ := exists_readsForm hread
          exact ⟨taken, .form htaken, hremaining⟩
      | error f =>
          obtain ⟨taken, hremaining⟩ := exists_taken [] s
          rw [← readForm, hread] at hremaining
          exact ⟨taken, .formFailed f taken, hremaining⟩
  | readForms => exact exists_uses_readForms s

/-- **All steps** take a beginning of the tokens to come, one step after the other. -/
lemma exists_usesAll (s : TokenStream) (steps : List StreamStep) :
    ∃ taken, UsesAll steps (performAll TokenStream.perform s steps).1 taken ∧
      s.remaining = taken ++ (performAll TokenStream.perform s steps).2.remaining := by
  induction steps generalizing s with
  | nil => exact ⟨[], .nil, rfl⟩
  | cons step rest ih =>
      obtain ⟨taken, htaken, hstep⟩ := exists_uses s step
      obtain ⟨others, hothers, hrest⟩ := ih (s.perform step).2
      refine ⟨taken ++ others, .cons htaken hothers, ?_⟩
      rw [hstep, hrest, List.append_assoc]
      rfl

/-! ### The refinement -/

/-- **A stream is a cursor.** Whatever is done with a stream of some tokens, it answers as a cursor
that moves over them from the first one on, and it stands where the cursor is: it holds no token
and the tokens from there on are to come, or it holds the one token at the cursor and those behind
it are to come. The steps take the tokens one after the other, each of them once: peeking takes
none, advancing the one it answers, and reading those of its forms. So any peek can be left out, and
no other answer changes. A form that fails after all this leaves the cursor unmoved where there is
no token or a closing parenthesis closes nothing, moves it to the end where a list is not closed,
and just behind the offending token where a string is not closed or an integer is over the limit. -/
theorem stream_refines_cursor (tokens : List Token) (steps : List StreamStep) :
    let run : List StreamAnswer × TokenStream :=
      performAll TokenStream.perform (ofList tokens) steps
    let cursor : List StreamAnswer × ℕ := performAll (performAt tokens) 0 steps
    let s : TokenStream := run.2
    let p : ℕ := cursor.2
    (run.1 = cursor.1 ∧ p ≤ tokens.length ∧
      (s = ⟨[], tokens.drop p⟩ ∨
        ∃ t, tokens[p]? = some t ∧ s = ⟨[t], tokens.drop (p + 1)⟩)) ∧
    (∃ taken, UsesAll steps run.1 taken ∧ tokens = taken ++ s.remaining) ∧
    (∀ i, steps[i]? = some .peek →
      let others : List StreamAnswer × TokenStream :=
        performAll TokenStream.perform (ofList tokens) (steps.eraseIdx i)
      others.1 = run.1.eraseIdx i ∧ others.2.remaining = s.remaining) ∧
    (∀ f rest, s.readForm = (.error f, rest) →
      ∃ q, performAt tokens p .readForm = (.form (.error f), q) ∧
        rest.remaining = tokens.drop q ∧ FailsAt tokens p f q) ∧
    ReadFault.noForm.message = "No tokens found" ∧
    ReadFault.strayClose.message = "Unexpected ')'" ∧
    ReadFault.unclosedList.message = "Expected ')' but found EOF" ∧
    ∀ text, (ReadFault.unclosedString text).message =
      "Unbalanced string: expected '\"', got EOF in " ++ text := by
  intro run cursor s p
  obtain ⟨hanswers, hstands⟩ := (StandsAt.start tokens).performAll steps
  refine ⟨⟨hanswers, hstands.le_length, hstands.eq_or_eq⟩, exists_usesAll (ofList tokens) steps,
    fun i hi => ?_, fun f rest hread => ?_, rfl, rfl, rfl, fun _ => rfl⟩
  · -- the cursor is not moved by peeking, and the stream answers as the cursor without the peek too
    obtain ⟨hothers, hends⟩ := (StandsAt.start tokens).performAll (steps.eraseIdx i)
    rw [performAll_eraseIdx (fun _ => rfl) 0 hi] at hothers hends
    exact ⟨hothers.trans (congrArg (List.eraseIdx · i) hanswers.symm),
      hends.remaining_eq.trans hstands.remaining_eq.symm⟩
  · -- the descent fails from there too, and says where
    cases hlanding : formAt tokens p with
    | read v q hq =>
        have hform := (readForm_meets_formAt hstands.remaining_eq).1
        rw [hlanding, hread] at hform
        nomatch hform
    | failed g q =>
        obtain ⟨hfault, hrest, hfails⟩ := hstands.readForm_failed hlanding
        rw [hread] at hfault hrest
        obtain rfl := Except.error.inj hfault
        exact ⟨q, by simp only [performAt, hlanding], hrest.remaining_eq, hfails⟩

/-- A form in front of a closing parenthesis, which is peeked at, cannot be read and stays. -/
theorem stray_close_stays_at_cursor :
    let close : Token := ⟨.closeParen, ")"⟩
    let tokens : List Token := [⟨.atom, "a"⟩, close]
    let run : List StreamAnswer × TokenStream :=
      performAll TokenStream.perform (ofList tokens) [.readForm, .peek]
    run = ([.form (.ok (.sym "a")), .token (some close)], ⟨[close], []⟩) ∧
      (performAll TokenStream.perform (ofList tokens) [.readForm]).1 =
        [.form (.ok (.sym "a"))] ∧
      ∃ p q, run.2.readForm = (.error .strayClose, ⟨[close], []⟩) ∧
        performAt tokens p .readForm = (.form (.error .strayClose), q) ∧
        [close] = tokens.drop q ∧ FailsAt tokens p .strayClose q := by
  intro close tokens run
  have hatom : (ofList tokens).readForm = (.ok (.sym "a"), ofList [close]) := readOn_done rfl
  have hrun : run = ([.form (.ok (.sym "a")), .token (some close)], ⟨[close], []⟩) := by
    simp only [run, performAll, TokenStream.perform, hatom]
    rfl
  have hstray : run.2.readForm = (.error .strayClose, ⟨[close], []⟩) := by
    have hholds : HoldsAtMostOne ⟨[close], []⟩ := le_rfl
    rw [hrun, hholds.readForm_eq]
    exact readOn_refused rfl
  obtain ⟨-, -, hpeek, hfails, -⟩ := stream_refines_cursor tokens [.readForm, .peek]
  obtain ⟨q, hcursor, hrest, hat⟩ := hfails _ _ hstray
  refine ⟨hrun, ?_, _, q, hstray, hcursor, hrest, hat⟩
  exact (hpeek 1 rfl).1.trans (congrArg (List.eraseIdx ·.1 1) hrun)

end TinyLisp
