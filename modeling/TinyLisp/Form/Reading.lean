/-
Reading forms.

A form is read token by token. The lists that are open are kept in a stack, each
with its items so far; a token opens a list, closes the innermost one, or adds
an item to it. The form is complete when an item arrives and no list is open.

* `step`: what one token does to the open lists.
* `TokenStream.readForm`, `TokenStream.readForms`: the next form of a stream,
  and all of them. A closing parenthesis that closes nothing stays unread; a
  string or an integer that cannot be read is taken from the stream.
* `readFirst`, `readAll`: the first form of a text, and all of them.
-/
import TinyLisp.Form.Atom
import TinyLisp.Token.Lexing
import TinyLisp.Token.Stream

namespace TinyLisp

/-! ### One token at a time -/

/-- The lists that are open, the innermost first, each with its items so far, the last one
first. -/
abbrev OpenLists := List (List Value)

/-- What a token does to the form that is being read. -/
inductive Step where
  /-- The token is taken, and the form goes on. -/
  | more (opened : OpenLists)
  /-- The token is taken, and the form is complete. -/
  | done (form : Value)
  /-- The token is left unread. -/
  | refused (f : ReadFault)
  /-- The token is taken, but cannot be read. -/
  | failed (f : ReadFault)

/-- An item arrives: it joins the innermost open list, or it is the whole form. -/
def arrive (v : Value) : OpenLists → Step
  | [] => .done v
  | items :: outer => .more ((v :: items) :: outer)

/-- What a token does to the open lists. -/
def step (opened : OpenLists) (t : Token) : Step :=
  match t.kind with
  | .openParen => .more ([] :: opened)
  | .closeParen =>
    match opened with
    | [] => .refused .strayClose
    | items :: outer => arrive (.list items.reverse) outer
  | .string =>
    match stringBody? t.text with
    | some text => arrive (.str text) opened
    | none => .failed (.unclosedString t.text)
  | .atom | .other _ =>
    match readAtom t.text with
    | .ok v => arrive v opened
    | .error f => .failed f

/-! ### Forms of a stream -/

namespace TokenStream

theorem remaining_advance_peek_lt {s : TokenStream} {t : Token} (h : s.peek.1 = some t) :
    s.peek.2.advance.2.remaining.length < s.remaining.length := by
  rw [peek_fst] at h
  cases hr : s.remaining <;> simp_all

/-- Reads on to the end of a form of which some lists are open. -/
def readOn (opened : OpenLists) (s : TokenStream) : Except ReadFault Value × TokenStream :=
  match h : s.peek.1 with
  | none => (.error (if opened.isEmpty then .noForm else .unclosedList), s.peek.2)
  | some t =>
    have := remaining_advance_peek_lt h
    match step opened t with
    | .more opened => readOn opened s.peek.2.advance.2
    | .done form => (.ok form, s.peek.2.advance.2)
    | .refused f => (.error f, s.peek.2)
    | .failed f => (.error f, s.peek.2.advance.2)
termination_by s.remaining.length

/-- Reads the next form. -/
def readForm (s : TokenStream) : Except ReadFault Value × TokenStream :=
  readOn [] s

/-- A form that is read takes at least one token. -/
theorem remaining_readOn_lt (opened : OpenLists) (s : TokenStream) {form : Value}
    (h : (readOn opened s).1 = .ok form) :
    (readOn opened s).2.remaining.length < s.remaining.length := by
  fun_induction readOn opened s with
  | case1 => simp at h
  | case2 _ s t _ hlt _ _ ih => exact Nat.lt_trans (ih h) hlt
  | case3 => assumption
  | case4 => simp at h
  | case5 => simp at h

/-- Reads every form: those before the first that cannot be read, and the fault of that one. -/
def readForms (s : TokenStream) : List Value × Option ReadFault × TokenStream :=
  match s.peek.1 with
  | none => ([], none, s.peek.2)
  | some _ =>
    match h : readForm s.peek.2 with
    | (.error f, rest) => ([], some f, rest)
    | (.ok form, rest) =>
      have : rest.remaining.length < s.remaining.length := by
        have hform : (readOn [] s.peek.2).1 = .ok form := by rw [← readForm, h]
        have hlt := remaining_readOn_lt [] s.peek.2 hform
        rwa [← readForm, h, remaining_peek] at hlt
      let (forms, fault, rest) := readForms rest
      (form :: forms, fault, rest)
termination_by s.remaining.length

end TokenStream

/-! ### Forms of a text -/

/-- The first form of a text. -/
def readFirst (source : String) : Except ReadFault Value :=
  (TokenStream.ofList (Token.ofSource source)).readForm.1

/-- Every form of a text, of which there is at least one. -/
def readAll (source : String) : Except ReadFault (List Value) :=
  match (TokenStream.ofList (Token.ofSource source)).readForms with
  | (_, some f, _) => .error f
  | ([], none, _) => .error .noForm
  | (forms, none, _) => .ok forms

theorem ne_nil_of_readAll {source : String} {forms : List Value}
    (h : readAll source = .ok forms) : forms ≠ [] := by
  unfold readAll at h
  split at h
  · simp at h
  · simp at h
  · next hne _ =>
      rintro rfl
      exact hne (Except.ok.inj h)

end TinyLisp
