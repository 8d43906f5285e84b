/-
Recursive descent at a position.

The forms of a fixed list of tokens can be read with nothing but a position in
the list: a form starts at the position, a list reads its items one after the
other, and each of them ends where the next one starts. The reader, which keeps
a stream and the lists that are open, gives the same forms and faults, and leaves
the tokens from the same position on.

* `Landing`: what is read from a position, and the position after it,
  `Landing.andThen` reading on from there.
* `formAt`, `itemsAt`, `formsAt`: the descent.
* `Landing.MetBy`, `readOn_meets_formAt`, `readOn_meets_itemsAt`: while some lists
  are open, the reader does what the descent does.
* `readForm_meets_formAt`, `readForms_meets_formsAt`: so they agree on a stream.
* `FailsInside`, `FailsAt`: the positions where a form fails, fault by fault.
* `endsBy_formAt` (**where a form fails**).
-/
import TinyLisp.Proofs.OneForm

namespace TinyLisp

open TokenStream

/-! ### The descent -/

/-- What is read from a position, and the position after it. What is read takes a token, what
fails may take none. -/
inductive Landing (α : Type) (p : ℕ) where
  | read (v : α) (q : ℕ) (hlt : p < q)
  | failed (f : ReadFault) (q : ℕ)

namespace Landing

variable {α β : Type} {p r : ℕ}

/-- Reading on behind what is read. -/
def andThen : Landing α p → (α → (q : ℕ) → p < q → Landing β r) → Landing β r
  | read v q hlt, next => next v q hlt
  | failed f q, _ => failed f q

/-- What is read from one token. -/
def ofToken : Except ReadFault α → Landing α p
  | .ok v => read v (p + 1) p.lt_succ_self
  | .error f => failed f (p + 1)

/-- What is read, or the fault. -/
def result : Landing α p → Except ReadFault α
  | read v _ _ => .ok v
  | failed f _ => .error f

/-- The position after it. -/
def position : Landing α p → ℕ
  | read _ q _ => q
  | failed _ q => q

end Landing

/-- The value of a token that is no parenthesis. -/
def Token.value (t : Token) : Except ReadFault Value :=
  match t.kind with
  | .string =>
    match stringBody? t.text with
    | some text => .ok (.str text)
    | none => .error (.unclosedString t.text)
  | .openParen | .closeParen | .atom | .other _ => readAtom t.text

mutual

/-- The form at a position. -/
def formAt (tokens : List Token) (p : ℕ) : Landing Value p :=
  match h : tokens[p]? with
  | none => .failed .noForm p
  | some t =>
    have := (List.getElem?_eq_some_iff.mp h).1
    match t.kind with
    | .openParen =>
      (itemsAt tokens (p + 1)).andThen fun items q hq =>
        .read (.list items) q (Nat.lt_of_succ_lt hq)
    | .closeParen => .failed .strayClose p
    | .string | .atom | .other _ => .ofToken t.value
termination_by 2 * (tokens.length - p)

/-- The items from a position on up to the closing parenthesis of their list. -/
def itemsAt (tokens : List Token) (p : ℕ) : Landing (List Value) p :=
  match h : tokens[p]? with
  | none => .failed .unclosedList p
  | some t =>
    have := (List.getElem?_eq_some_iff.mp h).1
    if t.kind = .closeParen then .read [] (p + 1) p.lt_succ_self
    else
      (formAt tokens p).andThen fun v q hq =>
        (itemsAt tokens q).andThen fun items q' hq' =>
          .read (v :: items) q' (hq.trans hq')
termination_by 2 * (tokens.length - p) + 1

end

/-- All forms from a position on: those before the first that fails, its fault, and the position
where reading ends. -/
def formsAt (tokens : List Token) (p : ℕ) : List Value × Option ReadFault × ℕ :=
  match h : tokens[p]? with
  | none => ([], none, p)
  | some _ =>
    have := (List.getElem?_eq_some_iff.mp h).1
    match formAt tokens p with
    | .failed f q => ([], some f, q)
    | .read v q _ => (v :: (formsAt tokens q).1, (formsAt tokens q).2)
termination_by tokens.length - p

/-! ### One token -/

/-- A token that is no parenthesis arrives as its value, or fails. -/
lemma step_of_value {t : Token} (opened : OpenLists) (hopen : t.kind ≠ .openParen)
    (hclose : t.kind ≠ .closeParen) :
    step opened t =
      match t.value with
      | .ok v => arrive v opened
      | .error f => .failed f := by
  obtain ⟨kind, text⟩ := t
  cases kind with
  | openParen => exact absurd rfl hopen
  | closeParen => exact absurd rfl hclose
  | string =>
      simp only [step, Token.value]
      cases stringBody? text <;> rfl
  | atom | other _ => rfl

/-! ### The reader does what the descent does -/

section

variable {tokens : List Token} {p : ℕ}

lemma drop_eq_cons {t : Token} (h : tokens[p]? = some t) :
    tokens.drop p = t :: tokens.drop (p + 1) := by
  obtain ⟨hlt, rfl⟩ := List.getElem?_eq_some_iff.mp h
  exact List.drop_eq_getElem_cons hlt

lemma drop_eq_nil (h : tokens[p]? = none) : tokens.drop p = [] :=
  List.drop_eq_nil_iff.mpr (List.getElem?_eq_none_iff.mp h)

/-- A result of the reader meets a landing: it goes on from there with what is read, or it has the
fault and leaves the tokens from there on. -/
def Landing.MetBy {α : Type} (tokens : List Token)
    (goOn : α → TokenStream → Except ReadFault Value × TokenStream)
    (result : Except ReadFault Value × TokenStream) : Landing α p → Prop
  | .read v q _ => result = goOn v (ofList (tokens.drop q))
  | .failed f q => result.1 = .error f ∧ result.2.remaining = tokens.drop q

/-- The reader goes on where the descent goes on. -/
lemma Landing.MetBy.andThen {α β : Type} {r : ℕ} {landing : Landing α p}
    {next : α → (q : ℕ) → p < q → Landing β r}
    {goOn : α → TokenStream → Except ReadFault Value × TokenStream}
    {goOn' : β → TokenStream → Except ReadFault Value × TokenStream}
    {result : Except ReadFault Value × TokenStream} (h : landing.MetBy tokens goOn result)
    (hnext : ∀ v q hq, (next v q hq).MetBy tokens goOn' (goOn v (ofList (tokens.drop q)))) :
    (landing.andThen next).MetBy tokens goOn' result := by
  cases landing with
  | read v q hq =>
      obtain rfl : result = goOn v (ofList (tokens.drop q)) := h
      exact hnext v q hq
  | failed f q => exact h

-- What the descent keeps by calling itself, the reader keeps as open lists: so both lemmas hold
-- for every stack below, and a closing parenthesis may come first only if the stack is empty.
mutual

/-- **A form** that is read at a position arrives in the lists that are open. -/
theorem readOn_meets_formAt (tokens : List Token) (p : ℕ) (opened : OpenLists)
    (h : opened = [] ∨ ∃ t, tokens[p]? = some t ∧ t.kind ≠ .closeParen) :
    (formAt tokens p).MetBy tokens (fun v => deliver v opened)
      (readOn opened (ofList (tokens.drop p))) := by
  rw [formAt]
  split
  · next hnone =>
      obtain rfl : opened = [] := h.resolve_right (by simp [hnone])
      rw [drop_eq_nil hnone, readOn_nil]
      exact ⟨rfl, (drop_eq_nil hnone).symm⟩
  · next t hsome =>
      have hlt : p < tokens.length := (List.getElem?_eq_some_iff.mp hsome).1
      rw [drop_eq_cons hsome]
      split
      · next hkind =>
          have hstep : step opened t = .more ([] :: opened) := by simp only [step, hkind]
          rw [readOn_more hstep]
          exact (readOn_meets_itemsAt tokens (p + 1) [] opened).andThen fun _ _ _ => rfl
      · next hkind =>
          obtain rfl : opened = [] := by
            refine h.resolve_right ?_
            rintro ⟨t', ht', hne⟩
            obtain rfl := Option.some.inj (hsome.symm.trans ht')
            exact hne hkind
          have hstep : step [] t = .refused .strayClose := by simp only [step, hkind]
          rw [readOn_refused hstep]
          exact ⟨rfl, (drop_eq_cons hsome).symm⟩
      all_goals
        next hkind =>
        have hstep := step_of_value (t := t) opened (by simp [hkind]) (by simp [hkind])
        cases hvalue : t.value with
        | ok v =>
            rw [hvalue] at hstep
            exact readOn_arrive hstep
        | error f =>
            rw [hvalue] at hstep
            rw [readOn_failed hstep]
            exact ⟨rfl, rfl⟩
termination_by 2 * (tokens.length - p)

/-- **Items** that are read at a position join the innermost open list, which is then closed. -/
theorem readOn_meets_itemsAt (tokens : List Token) (p : ℕ) (done : List Value)
    (outer : OpenLists) :
    (itemsAt tokens p).MetBy tokens (fun items => deliver (.list (done.reverse ++ items)) outer)
      (readOn (done :: outer) (ofList (tokens.drop p))) := by
  rw [itemsAt]
  split
  · next hnone =>
      rw [drop_eq_nil hnone, readOn_nil]
      exact ⟨rfl, (drop_eq_nil hnone).symm⟩
  · next t hsome =>
      have hlt : p < tokens.length := (List.getElem?_eq_some_iff.mp hsome).1
      split
      · next hkind =>
          have hstep : step (done :: outer) t = arrive (.list (done.reverse ++ [])) outer := by
            simp only [step, hkind, List.append_nil]
          rw [drop_eq_cons hsome]
          exact readOn_arrive hstep
      · next hkind =>
          -- the form joins the items so far, and the descent goes on behind it
          have hform := readOn_meets_formAt tokens p (done :: outer) (.inr ⟨t, hsome, hkind⟩)
          refine hform.andThen fun v q hq => ?_
          refine (readOn_meets_itemsAt tokens q (v :: done) outer).andThen fun items q' _ => ?_
          rw [Landing.MetBy, List.reverse_cons, List.append_assoc, List.singleton_append]
termination_by 2 * (tokens.length - p) + 1

end

/-- **The next form** of a stream is the form at the position where its tokens to come begin. -/
lemma readForm_meets_formAt {s : TokenStream} (h : s.remaining = tokens.drop p) :
    s.readForm.1 = (formAt tokens p).result ∧
      s.readForm.2.remaining = tokens.drop (formAt tokens p).position := by
  obtain ⟨hresult, hrest⟩ := readForm_of_remaining h
  have hform := readOn_meets_formAt tokens p [] (.inl rfl)
  rw [hresult, hrest, readForm]
  cases hlanding : formAt tokens p with
  | read v q hq =>
      rw [hlanding] at hform
      rw [show readOn [] _ = (.ok v, ofList (tokens.drop q)) from hform]
      exact ⟨rfl, rfl⟩
  | failed f q =>
      rw [hlanding] at hform
      exact hform

section

variable {s rest : TokenStream} {t : Token} {f : ReadFault} {form : Value}

lemma readForms_of_none (h : s.peek.1 = none) : s.readForms = ([], none, s.peek.2) := by
  rw [readForms]
  split
  · rfl
  · next hsome => exact absurd (h.symm.trans hsome) (by simp)

lemma readForms_of_error (h : s.peek.1 = some t) (hform : s.peek.2.readForm = (.error f, rest)) :
    s.readForms = ([], some f, rest) := by
  rw [readForms]
  split
  · next hnone => exact absurd (h.symm.trans hnone) (by simp)
  · split
    · next heq =>
        rw [hform] at heq
        obtain ⟨hfault, rfl⟩ := Prod.mk.inj heq
        rw [Except.error.inj hfault]
    · next heq => exact absurd (hform.symm.trans heq) (by simp)

lemma readForms_of_ok (h : s.peek.1 = some t) (hform : s.peek.2.readForm = (.ok form, rest)) :
    s.readForms = (form :: rest.readForms.1, rest.readForms.2) := by
  rw [readForms]
  split
  · next hnone => exact absurd (h.symm.trans hnone) (by simp)
  · split
    · next heq => exact absurd (hform.symm.trans heq) (by simp)
    · next heq =>
        rw [hform] at heq
        obtain ⟨hvalue, rfl⟩ := Prod.mk.inj heq
        rw [Except.ok.inj hvalue]

end

/-- **All forms** of a stream are the forms from that position on. -/
lemma readForms_meets_formsAt {s : TokenStream} (h : s.remaining = tokens.drop p) :
    s.readForms.1 = (formsAt tokens p).1 ∧ s.readForms.2.1 = (formsAt tokens p).2.1 ∧
      s.readForms.2.2.remaining = tokens.drop (formsAt tokens p).2.2 := by
  have hpeek : s.peek.2.remaining = tokens.drop p := (remaining_peek s).trans h
  fun_induction formsAt tokens p generalizing s with
  | case1 p hnone =>
      have hfst : s.peek.1 = none := by rw [peek_fst, h, drop_eq_nil hnone, List.head?_nil]
      rw [readForms_of_none hfst]
      exact ⟨rfl, rfl, hpeek⟩
  | case2 p t hsome _ f q hlanding =>
      have hfst : s.peek.1 = some t := by rw [peek_fst, h, drop_eq_cons hsome, List.head?_cons]
      obtain ⟨hfault, hrest⟩ := readForm_meets_formAt hpeek
      rw [hlanding] at hfault hrest
      rw [readForms_of_error hfst (Prod.ext hfault rfl)]
      exact ⟨rfl, rfl, hrest⟩
  | case3 p t hsome _ v q _ hlanding ih =>
      have hfst : s.peek.1 = some t := by rw [peek_fst, h, drop_eq_cons hsome, List.head?_cons]
      obtain ⟨hform, hbehind⟩ := readForm_meets_formAt hpeek
      rw [hlanding] at hform hbehind
      rw [readForms_of_ok hfst (Prod.ext hform rfl)]
      obtain ⟨hforms, hfault, hrest⟩ := ih hbehind ((remaining_peek _).trans hbehind)
      exact ⟨congrArg (v :: ·) hforms, hfault, hrest⟩

end

/-! ### Where a form fails -/

/-- A token that is neither a parenthesis nor a string. -/
def Token.IsAtomic (t : Token) : Prop :=
  t.kind ≠ .openParen ∧ t.kind ≠ .closeParen ∧ t.kind ≠ .string

/-- A form that has begun fails at some position: the tokens end inside a list, or a token that is
not earlier is a string without a closing quote or an integer over the digit limit, and this token
is the last one taken. -/
inductive FailsInside (tokens : List Token) (p : ℕ) : ReadFault → ℕ → Prop
  | unclosedList : FailsInside tokens p .unclosedList tokens.length
  | unclosedString {t i} (hle : p ≤ i) (ht : tokens[i]? = some t) (hkind : t.kind = .string)
      (hunclosed : ¬ IsClosedLiteral t.text) :
      FailsInside tokens p (.unclosedString t.text) (i + 1)
  | longNumeral {t i digits} (hle : p ≤ i) (ht : tokens[i]? = some t) (hatomic : t.IsAtomic)
      (hlong : overlongDigits? t.text = some digits) :
      FailsInside tokens p (.longNumeral digits) (i + 1)

/-- A form at a position fails at some position: there is no token, or the token closes nothing,
and no token is taken; or the form has begun. -/
inductive FailsAt (tokens : List Token) (p : ℕ) : ReadFault → ℕ → Prop
  | noForm (hend : p = tokens.length) : FailsAt tokens p .noForm p
  | strayClose {t} (ht : tokens[p]? = some t) (hkind : t.kind = .closeParen) :
      FailsAt tokens p .strayClose p
  | inside {f q} (h : FailsInside tokens p f q) : FailsAt tokens p f q

section

variable {tokens : List Token} {p q : ℕ} {t : Token} {f : ReadFault}

lemma FailsInside.mono {p' : ℕ} (hp : p' ≤ p) (h : FailsInside tokens p f q) :
    FailsInside tokens p' f q := by
  cases h with
  | unclosedList => exact .unclosedList
  | unclosedString hle ht hkind hunclosed =>
      exact .unclosedString (hp.trans hle) ht hkind hunclosed
  | longNumeral hle ht hatomic hlong => exact .longNumeral (hp.trans hle) ht hatomic hlong

/-- A form fails inside where its token begins one. -/
lemma FailsAt.inside_of_begun (h : FailsAt tokens p f q) (ht : tokens[p]? = some t)
    (hkind : t.kind ≠ .closeParen) : FailsInside tokens p f q := by
  cases h with
  | noForm hend =>
      have hlt := (List.getElem?_eq_some_iff.mp ht).1
      omega
  | strayClose ht' hclose =>
      obtain rfl := Option.some.inj (ht.symm.trans ht')
      exact absurd hclose hkind
  | inside h => exact h

/-- A form fails behind a token that has no value. -/
lemma failsInside_of_value (ht : tokens[p]? = some t) (hopen : t.kind ≠ .openParen)
    (hclose : t.kind ≠ .closeParen) (h : t.value = .error f) : FailsInside tokens p f (p + 1) := by
  obtain ⟨kind, text⟩ := t
  cases kind with
  | openParen => exact absurd rfl hopen
  | closeParen => exact absurd rfl hclose
  | string =>
      simp only [Token.value] at h
      cases hbody : stringBody? text with
      | some body =>
          rw [hbody] at h
          nomatch h
      | none =>
          rw [hbody] at h
          obtain rfl := Except.error.inj h
          have hunclosed : ¬ IsClosedLiteral text := by simp [← stringBody?_isSome_iff, hbody]
          exact .unclosedString le_rfl ht rfl hunclosed
  | atom | other _ =>
      have hread : readAtom text = .error f := h
      cases hdigits : overlongDigits? text with
      | some digits =>
          rw [readAtom_of_overlong hdigits] at hread
          obtain rfl := Except.error.inj hread
          exact .longNumeral le_rfl ht ⟨hopen, hclose, by simp⟩ hdigits
      | none =>
          obtain ⟨v, hv⟩ := exists_readAtom hdigits
          exact absurd (hv.symm.trans hread) (by simp)

/-- A landing ends among the tokens, and where it fails some property holds. -/
def Landing.EndsBy {α : Type} (tokens : List Token) (fails : ReadFault → ℕ → Prop) :
    Landing α p → Prop
  | .read _ q _ => q ≤ tokens.length
  | .failed f q => fails f q

/-- What is read behind a position among the tokens ends among them. -/
lemma Landing.EndsBy.andThen {α β : Type} {r : ℕ} {landing : Landing α p}
    {next : α → (q : ℕ) → p < q → Landing β r} {fails fails' : ReadFault → ℕ → Prop}
    (h : landing.EndsBy tokens fails) (hfails : ∀ f q, fails f q → fails' f q)
    (hnext : ∀ v q hq, q ≤ tokens.length → (next v q hq).EndsBy tokens fails') :
    (landing.andThen next).EndsBy tokens fails' := by
  cases landing with
  | read v q hq => exact hnext v q hq h
  | failed f q => exact hfails f q h

mutual

/-- **Where a form fails.** -/
theorem endsBy_formAt (tokens : List Token) (p : ℕ) (hp : p ≤ tokens.length) :
    (formAt tokens p).EndsBy tokens (FailsAt tokens p) := by
  rw [formAt]
  split
  · next hnone => exact .noForm (hp.antisymm (List.getElem?_eq_none_iff.mp hnone))
  · next t hsome =>
      have hlt : p < tokens.length := (List.getElem?_eq_some_iff.mp hsome).1
      split
      · exact (endsBy_itemsAt tokens (p + 1) hlt).andThen
          (fun _ _ h => .inside (h.mono p.le_succ)) fun _ _ _ hq => hq
      · next hkind => exact .strayClose hsome hkind
      all_goals
        next hkind =>
        cases hvalue : t.value with
        | ok v => exact hlt
        | error f =>
            exact .inside
              (failsInside_of_value hsome (by simp [hkind]) (by simp [hkind]) hvalue)
termination_by 2 * (tokens.length - p)

/-- Where the items of a list fail. -/
theorem endsBy_itemsAt (tokens : List Token) (p : ℕ) (hp : p ≤ tokens.length) :
    (itemsAt tokens p).EndsBy tokens (FailsInside tokens p) := by
  rw [itemsAt]
  split
  · next hnone =>
      obtain rfl := hp.antisymm (List.getElem?_eq_none_iff.mp hnone)
      exact .unclosedList
  · next t hsome =>
      have hlt : p < tokens.length := (List.getElem?_eq_some_iff.mp hsome).1
      split
      · exact hlt
      · next hkind =>
          refine (endsBy_formAt tokens p hp).andThen
            (fun _ _ h => h.inside_of_begun hsome hkind) fun v q hq hle => ?_
          exact (endsBy_itemsAt tokens q hle).andThen
            (fun _ _ h => h.mono hq.le) fun _ _ _ hle' => hle'
termination_by 2 * (tokens.length - p) + 1

end

end

end TinyLisp
