/-
Forms that are read from a text.

Reading makes nothing but trees of literals, integers that can be written,
strings whose quotes and backslashes are escaped, and atoms. This holds of every
form of every text, whether the text was printed or not.

* `Value.AllLeaves`: a property of every leaf of a value, through its lists.
* `Escaped`: the texts that can stand between the quotes of a string.
* `Value.IsPlain`, `Value.IsFormLeaf`: the leaves of data, and of forms.
* `Value.Readable`: the forms that can be read.
* `Token.Lexed`, `lexed_of_mem_tokenize`: what the atoms of a text are made of.
* `readAll_readable` (**forms of a text are readable**).
-/
import Mathlib.Tactic
import TinyLisp.Form.Reading

namespace TinyLisp

/-! ### Leaves -/

namespace Value

/-- A property of every leaf of a value, through its lists; the body of a closure is part of the
leaf. -/
inductive AllLeaves (p : Value → Prop) : Value → Prop
  | leaf {v} (hv : ∀ items, v ≠ list items) (h : p v) : AllLeaves p v
  | list {items} (h : ∀ v ∈ items, AllLeaves p v) : AllLeaves p (list items)

variable {p : Value → Prop}

lemma allLeaves_list {items : List Value} :
    AllLeaves p (list items) ↔ ∀ v ∈ items, AllLeaves p v := by
  refine ⟨fun h => ?_, .list⟩
  cases h with
  | leaf hv _ => exact absurd rfl (hv items)
  | list h => exact h

lemma AllLeaves.of_leaf {v : Value} (h : AllLeaves p v) (hv : ∀ items, v ≠ Value.list items) :
    p v := by
  cases h with
  | leaf _ h => exact h
  | @list items _ => exact absurd rfl (hv items)

lemma allLeaves_leaf {v : Value} (hv : ∀ items, v ≠ Value.list items) : AllLeaves p v ↔ p v :=
  ⟨fun h => h.of_leaf hv, .leaf hv⟩

lemma allLeaves_int {n : ℤ} : AllLeaves p (int n) ↔ p (int n) :=
  allLeaves_leaf (by simp)

lemma AllLeaves.mono {q : Value → Prop} (hpq : ∀ v, p v → q v) {v : Value} (h : AllLeaves p v) :
    AllLeaves q v := by
  induction h with
  | leaf hv h => exact .leaf hv (hpq _ h)
  | list _ ih => exact .list ih

end Value

/-- The texts that can stand between the quotes of a string: every backslash takes the next
character with it, and no other quote or backslash is there. -/
inductive Escaped : List Char → Prop
  | nil : Escaped []
  | pair (c : Char) {rest : List Char} (h : Escaped rest) : Escaped ('\\' :: c :: rest)
  | char {c : Char} {rest : List Char} (hquote : c ≠ '"') (hslash : c ≠ '\\')
      (h : Escaped rest) : Escaped (c :: rest)

/-- The text of an atom: one or more characters that neither separate nor delimit. -/
structure IsAtom (text : List Char) : Prop where
  ne_nil : text ≠ []
  all : ∀ c ∈ text, Token.isAtomChar c = true

lemma isAtom_of_all {text : List Char} (hne : text ≠ [])
    (h : text.all Token.isAtomChar = true) : IsAtom text :=
  ⟨hne, List.all_eq_true.mp h⟩

/-- The atoms that are read as symbols. -/
structure IsSymbol (name : String) : Prop where
  atom : IsAtom name.toList
  ne_nil : name ≠ "nil"
  ne_true : name ≠ "true"
  ne_false : name ≠ "false"
  not_numeral : isNumeral name.toList = false
  not_keyword : name.toList.head? ≠ some ':'

/-- The atoms that are read as keywords. -/
structure IsKeyword (name : String) : Prop where
  atom : IsAtom name.toList
  colon : name.toList.head? = some ':'

namespace Value

/-- The leaves of data. -/
def IsPlain : Value → Prop
  | nil | bool _ | int _ => True
  | str text => Escaped text.toList
  | kw name => IsKeyword name
  | _ => False

/-- The leaves of forms: those of data with integers that can be written, and symbols. -/
def IsFormLeaf : Value → Prop
  | int n => (Text.decimal? n).isSome
  | sym name => IsSymbol name
  | v => v.IsPlain

/-- The forms that can be read. -/
def Readable (v : Value) : Prop :=
  v.AllLeaves IsFormLeaf

end Value

/-! ### The tokens of a text -/

namespace Token

/-- A token as a text gives it: its atoms are atoms. -/
def Lexed (t : Token) : Prop :=
  match t.kind with
  | .openParen | .closeParen | .string => True
  | .atom => IsAtom t.text.toList
  | .other _ => False

/-- After the layout no separator and no comment comes. -/
lemma head_skipLayout {comment : Bool} {s rest : List Char} {c : Char}
    (h : skipLayout comment s = c :: rest) : isSeparator c = false ∧ c ≠ ';' := by
  fun_induction skipLayout comment s with
  | case1 => exact absurd h (by simp)
  | case2 _ _ ih | case3 _ _ _ _ _ ih | case4 _ _ _ _ _ _ ih => exact ih h
  | case5 _ _ _ _ hsep hsemi =>
      obtain ⟨rfl, -⟩ := List.cons.inj h
      exact ⟨Bool.eq_false_of_not_eq_true hsep, fun heq => hsemi (beq_iff_eq.mpr heq)⟩

lemma isAtomChar_of_delimits {c : Char} (hsep : isSeparator c = false) (hopen : c ≠ '(')
    (hclose : c ≠ ')') (hsemi : c ≠ ';') (hquote : c ≠ '"') : isAtomChar c = true := by
  simp [isAtomChar, hsep, hopen, hclose, hsemi, hquote]

lemma lexed_of_next? {s rest : List Char} {t : Token} (h : next? s = some (t, rest)) :
    t.Lexed := by
  rw [next?] at h
  split at h
  · exact absurd h (by simp)
  · next heq =>
      obtain ⟨rfl, -⟩ := Prod.mk.inj (Option.some.inj h)
      trivial
  · next heq =>
      obtain ⟨rfl, -⟩ := Prod.mk.inj (Option.some.inj h)
      trivial
  · next heq =>
      obtain ⟨rfl, -⟩ := Prod.mk.inj (Option.some.inj h)
      trivial
  · next c r hopen hclose hquote heq =>
      obtain ⟨hsep, hsemi⟩ := head_skipLayout heq
      obtain ⟨rfl, -⟩ := Prod.mk.inj (Option.some.inj h)
      refine ⟨by simp, fun d hd => ?_⟩
      rw [String.toList_ofList] at hd
      rcases List.mem_cons.mp hd with rfl | hd
      · exact isAtomChar_of_delimits hsep (by simpa using hopen) (by simpa using hclose) hsemi
          (by simpa using hquote)
      · exact List.all_eq_true.mp List.all_takeWhile d hd

/-- What holds of the first token of every text holds of every token. -/
lemma forall_mem_tokenize {p : Token → Prop}
    (h : ∀ {s rest : List Char} {t : Token}, next? s = some (t, rest) → p t) (s : List Char) :
    ∀ t ∈ tokenize s, p t := by
  fun_induction tokenize s with
  | case1 => exact nofun
  | case2 s t rest hnext _ ih => exact List.forall_mem_cons.mpr ⟨h hnext, ih⟩

/-- The atoms of a text are made of the characters of atoms. -/
lemma lexed_of_mem_tokenize {s : List Char} {t : Token} (h : t ∈ tokenize s) : t.Lexed :=
  forall_mem_tokenize lexed_of_next? s t h

end Token

/-! ### Integers within the digit limit -/

/-- A row of digits denotes less than the power of ten with as many zeros. -/
lemma ofDigitChars_lt {digits : List Char} (h : ∀ c ∈ digits, c.isDigit = true) (init : ℕ) :
    Nat.ofDigitChars 10 digits init < 10 ^ digits.length * (init + 1) := by
  induction digits generalizing init with
  | nil => simp
  | cons c rest ih =>
      have hc := Char.isDigit_iff_toNat.mp (h c List.mem_cons_self)
      have hdigit : c.toNat - '0'.toNat ≤ 9 := by
        have hzero : '0'.toNat = 48 := rfl
        have hnine : '9'.toNat = 57 := rfl
        omega
      have hrest := ih (fun d hd => h d (List.mem_cons_of_mem _ hd))
        (10 * init + (c.toNat - '0'.toNat))
      rw [Nat.ofDigitChars_cons, List.length_cons, pow_succ, mul_assoc]
      refine hrest.trans_le (Nat.mul_le_mul_left _ ?_)
      omega

lemma isSome_decimalWithin? {limit : ℕ} {n : ℤ} (h : n.natAbs < 10 ^ limit) :
    (Text.decimalWithin? limit n).isSome := by
  have hpow : n.natAbs < Nat.pow 10 limit := h
  rw [Text.decimalWithin?, if_pos hpow]
  rfl

lemma natAbs_numeralValue (s : List Char) :
    (numeralValue s).natAbs = Nat.ofDigitChars 10 (numeralDigits s) 0 := by
  unfold numeralValue numeralDigits
  split <;> simp

/-- A numeral within the digit limit denotes an integer that can be written. -/
lemma isSome_decimalWithin?_numeralValue {limit : ℕ} {s : List Char} (h : isNumeral s = true)
    (hlimit : (numeralDigits s).length ≤ limit) :
    (Text.decimalWithin? limit (numeralValue s)).isSome := by
  have hdigits : ∀ c ∈ numeralDigits s, c.isDigit = true := by
    simp only [isNumeral, Bool.and_eq_true, List.all_eq_true] at h
    exact h.2
  refine isSome_decimalWithin? ?_
  rw [natAbs_numeralValue]
  have hlt := ofDigitChars_lt hdigits 0
  have hle : 10 ^ (numeralDigits s).length ≤ 10 ^ limit := Nat.pow_le_pow_right (by decide) hlimit
  omega

/-! ### The values of tokens -/

/-- An atom is read as a leaf of forms. -/
lemma isFormLeaf_of_readAtom {text : String} {v : Value} (hatom : IsAtom text.toList)
    (h : readAtom text = .ok v) : v.IsFormLeaf ∧ ∀ items, v ≠ .list items := by
  unfold readAtom at h
  simp only at h
  split_ifs at h with hnil htrue hfalse hnum hdigits hcolon
  · obtain rfl := Except.ok.inj h
    exact ⟨trivial, nofun⟩
  · obtain rfl := Except.ok.inj h
    exact ⟨trivial, nofun⟩
  · obtain rfl := Except.ok.inj h
    exact ⟨trivial, nofun⟩
  · obtain rfl := Except.ok.inj h
    exact ⟨isSome_decimalWithin?_numeralValue hnum hdigits, nofun⟩
  · obtain rfl := Except.ok.inj h
    exact ⟨⟨hatom, hcolon⟩, nofun⟩
  · obtain rfl := Except.ok.inj h
    exact ⟨⟨hatom, hnil, htrue, hfalse, Bool.eq_false_of_not_eq_true hnum, hcolon⟩, nofun⟩

/-- A closed text is the text before its closing quote, and that quote. -/
lemma eq_of_closedBody? {s body : List Char} (h : closedBody? s = some body) :
    s = body ++ ['"'] := by
  fun_induction closedBody? s generalizing body with
  | case1 => exact absurd h (by simp)
  | case2 =>
      rw [← Option.some.inj h]
      rfl
  | case3 => exact absurd h (by simp)
  | case4 c rest ih | case5 c rest _ _ _ ih =>
      obtain ⟨body', hbody, rfl⟩ := Option.map_eq_some_iff.mp h
      rw [ih hbody]
      rfl

/-- The text before a closing quote is escaped. -/
lemma escaped_of_closedBody? {s body : List Char} (h : closedBody? s = some body) :
    Escaped body := by
  fun_induction closedBody? s generalizing body with
  | case1 => nomatch h
  | case2 =>
      obtain rfl := Option.some.inj h
      exact .nil
  | case3 => nomatch h
  | case4 c rest ih =>
      obtain ⟨body', hbody, rfl⟩ := Option.map_eq_some_iff.mp h
      exact .pair c (ih hbody)
  | case5 c rest hlast hquote hslash ih =>
      obtain ⟨body', hbody, rfl⟩ := Option.map_eq_some_iff.mp h
      refine .char hquote ?_ (ih hbody)
      rintro rfl
      cases rest with
      | nil => nomatch hbody
      | cons d rest => exact hslash d rest rfl rfl

lemma escaped_of_stringBody? {token text : String} (h : stringBody? token = some text) :
    Escaped text.toList := by
  unfold stringBody? at h
  split at h
  · obtain ⟨body, hbody, rfl⟩ := Option.map_eq_some_iff.mp h
    rw [String.toList_ofList]
    exact escaped_of_closedBody? hbody
  · nomatch h

/-! ### The forms of a text -/

/-- A step that leaves readable items in the open lists, or comes to a readable form. -/
def Step.Readable : Step → Prop
  | .more opened => ∀ items ∈ opened, ∀ v ∈ items, v.Readable
  | .done form => form.Readable
  | .refused _ | .failed _ => True

variable {opened : OpenLists}

lemma arrive_readable {v : Value} (hv : v.Readable)
    (h : ∀ items ∈ opened, ∀ w ∈ items, w.Readable) :
    (arrive v opened).Readable := by
  cases opened with
  | nil => exact hv
  | cons items outer =>
      intro items' hitems' w hw
      rcases List.mem_cons.mp hitems' with rfl | hmem
      · rcases List.mem_cons.mp hw with rfl | hw
        · exact hv
        · exact h items List.mem_cons_self w hw
      · exact h items' (List.mem_cons_of_mem _ hmem) w hw

/-- A token of a text keeps what is read readable. -/
lemma step_readable {t : Token} (ht : t.Lexed)
    (h : ∀ items ∈ opened, ∀ w ∈ items, w.Readable) : (step opened t).Readable := by
  obtain ⟨kind, text⟩ := t
  cases kind with
  | openParen =>
      intro items hitems
      rcases List.mem_cons.mp hitems with rfl | hitems
      · exact fun w hw => nomatch hw
      · exact h items hitems
  | closeParen =>
      cases opened with
      | nil => trivial
      | cons items outer =>
          refine arrive_readable (.list fun w hw => ?_) fun items' hitems' =>
            h items' (List.mem_cons_of_mem _ hitems')
          exact h items List.mem_cons_self w (List.mem_reverse.mp hw)
  | string =>
      unfold step
      cases hbody : stringBody? text with
      | none => trivial
      | some body => exact arrive_readable (.leaf nofun (escaped_of_stringBody? hbody)) h
  | atom =>
      unfold step
      cases hread : readAtom text with
      | error f => trivial
      | ok v =>
          obtain ⟨hleaf, hv⟩ := isFormLeaf_of_readAtom ht hread
          exact arrive_readable (.leaf hv hleaf) h
  | other name => exact ht.elim

namespace TokenStream

/-- Every token to come is a token of a text. -/
def Lexed (s : TokenStream) : Prop :=
  ∀ t ∈ s.remaining, t.Lexed

variable {s : TokenStream}

lemma Lexed.peek (h : s.Lexed) : s.peek.2.Lexed := by
  rw [Lexed, remaining_peek]
  exact h

lemma Lexed.advance (h : s.Lexed) : s.advance.2.Lexed := by
  rw [Lexed, remaining_advance]
  exact fun t ht => h t (List.mem_of_mem_tail ht)

lemma Lexed.head (h : s.Lexed) {t : Token} (ht : s.peek.1 = some t) : t.Lexed := by
  rw [peek_fst] at ht
  exact h t (List.mem_of_mem_head? ht)

/-- Reading on keeps the tokens to come, and a form that is read is readable. -/
lemma readOn_readable {opened : OpenLists} (hs : s.Lexed)
    (hopened : ∀ items ∈ opened, ∀ w ∈ items, w.Readable) :
    (readOn opened s).2.Lexed ∧ ∀ form, (readOn opened s).1 = .ok form → form.Readable := by
  fun_induction readOn opened s with
  | case1 opened s hpeek => exact ⟨hs.peek, fun _ h => absurd h (by simp)⟩
  | case2 opened s t hpeek _ opened' hstep ih =>
      have hnext := step_readable (hs.head hpeek) hopened
      rw [hstep] at hnext
      exact ih hs.peek.advance hnext
  | case3 opened s t hpeek _ form hstep =>
      have hnext := step_readable (hs.head hpeek) hopened
      rw [hstep] at hnext
      refine ⟨hs.peek.advance, fun form' hform => ?_⟩
      rwa [← Except.ok.inj hform]
  | case4 opened s t hpeek _ f hstep => exact ⟨hs.peek, fun _ h => absurd h (by simp)⟩
  | case5 opened s t hpeek _ f hstep => exact ⟨hs.peek.advance, fun _ h => absurd h (by simp)⟩

/-- Every form of a stream of tokens of a text is readable. -/
lemma readForms_readable (hs : s.Lexed) : ∀ form ∈ s.readForms.1, form.Readable := by
  fun_induction readForms s with
  | case1 => exact fun _ hform => nomatch hform
  | case2 => exact fun _ hform => nomatch hform
  | case3 s t hpeek form rest hform _ forms fault rest' hforms ih =>
      have hopened : ∀ items ∈ ([] : OpenLists), ∀ w ∈ items, w.Readable := nofun
      have hread := readOn_readable hs.peek hopened
      rw [← readForm, hform] at hread
      intro form' hform'
      rcases List.mem_cons.mp hform' with rfl | hmem
      · exact hread.2 _ rfl
      · exact ih hread.1 form' (hforms ▸ hmem)

end TokenStream

/-- **Every form of a text is readable.** -/
theorem readAll_readable {source : String} {forms : List Value} (h : readAll source = .ok forms) :
    ∀ form ∈ forms, form.Readable := by
  have hlexed : (TokenStream.ofList (Token.ofSource source)).Lexed := fun t ht =>
    Token.lexed_of_mem_tokenize ht
  have hforms := TokenStream.readForms_readable hlexed
  unfold readAll at h
  split at h
  · nomatch h
  · nomatch h
  · next heq =>
      rw [heq] at hforms
      rwa [← Except.ok.inj h]

end TinyLisp
