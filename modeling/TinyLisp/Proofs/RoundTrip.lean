/-
Reading undoes printing.

A printed form is cut into its own tokens whatever follows it, as long as no
character that could continue an atom does. So reading it on to any open lists
is the arrival of the form itself, and the law goes through lists by induction
on the form.

* `Token.Boundary`: what may follow an atom.
* `next?_atom`, `next?_string`: the first token of a printed form.
* `readAtom_decimal`: integers are read back.
* `TokenStream.deliver`: a form arrives while lists are open.
* `Value.ReadsBack`, `Value.Readable.readsBack`: the law on any open lists.
* `Value.Readable.readEvery_print`: a printed form in front of other text.
* `readAll_print` (**reading undoes printing** on readable forms).
-/
import TinyLisp.Proofs.OnePass
import TinyLisp.Value.Printer

namespace TinyLisp

/-! ### Cutting a printed form -/

namespace Token

/-- What may follow an atom: nothing, or a character that is in no atom. -/
def Boundary (rest : List Char) : Prop :=
  ∀ c ∈ rest.head?, isAtomChar c = false

lemma boundary_nil : Boundary [] := nofun

lemma boundary_cons {c : Char} (h : isAtomChar c = false) (rest : List Char) :
    Boundary (c :: rest) := by
  intro d hd
  rwa [← Option.some.inj hd]

lemma takeWhile_of_boundary {text rest : List Char} (h : ∀ c ∈ text, isAtomChar c = true)
    (hrest : Boundary rest) : (text ++ rest).takeWhile isAtomChar = text := by
  rw [List.takeWhile_append_of_pos h]
  cases rest with
  | nil => simp
  | cons c rest => simp [hrest c rfl]

lemma dropWhile_of_boundary {text rest : List Char} (h : ∀ c ∈ text, isAtomChar c = true)
    (hrest : Boundary rest) : (text ++ rest).dropWhile isAtomChar = rest := by
  rw [List.dropWhile_append_of_pos h]
  cases rest with
  | nil => rfl
  | cons c rest => simp [hrest c rfl]

lemma skipLayout_of_atomChar {c : Char} (h : isAtomChar c = true) (rest : List Char) :
    skipLayout false (c :: rest) = c :: rest := by
  have hsep : isSeparator c = false := by
    simp only [isAtomChar, Bool.and_eq_true, Bool.not_eq_true'] at h
    exact h.1
  have hsemi : (c == ';') = false := by
    refine beq_false_of_ne ?_
    rintro rfl
    exact absurd h (by decide)
  simp [skipLayout, hsep, hsemi]

/-- An atom is the first token of a text that goes on behind it with no atom. -/
lemma next?_atom {text rest : List Char} (h : IsAtom text) (hrest : Boundary rest) :
    next? (text ++ rest) = some (⟨.atom, String.ofList text⟩, rest) := by
  obtain ⟨c, text, rfl⟩ := List.exists_cons_of_ne_nil h.ne_nil
  have hc : isAtomChar c = true := h.all c List.mem_cons_self
  have htext : ∀ d ∈ text, isAtomChar d = true := fun d hd => h.all d (List.mem_cons_of_mem _ hd)
  have hne (d : Char) (hd : isAtomChar d = false) (after : List Char) :
      c :: (text ++ rest) ≠ d :: after := by
    intro heq
    rw [(List.cons.inj heq).1, hd] at hc
    exact absurd hc Bool.false_ne_true
  rw [next?, List.cons_append, skipLayout_of_atomChar hc]
  split
  · next heq => exact absurd heq (by simp)
  · next heq => exact absurd heq (hne '(' rfl _)
  · next heq => exact absurd heq (hne ')' rfl _)
  · next heq => exact absurd heq (hne '"' rfl _)
  · next heq =>
      obtain ⟨rfl, rfl⟩ := List.cons.inj heq
      rw [takeWhile_of_boundary htext hrest, dropWhile_of_boundary htext hrest]

/-- A string goes on through an escaped text as from there. -/
lemma spanString_through {text : List Char} (h : Escaped text) (rest : List Char) :
    spanString (text ++ rest) = (text ++ (spanString rest).1, (spanString rest).2) := by
  induction h with
  | nil => rfl
  | pair c _ ih =>
      rw [List.cons_append, List.cons_append, spanString, ih]
      rfl
  | char hquote hslash _ ih =>
      rw [List.cons_append, spanString.eq_5, ih]
      · rfl
      · exact hquote
      · exact fun heq _ => hslash heq
      · exact fun _ _ heq _ => hslash heq

/-- A string ends at its first quote that is not escaped. -/
lemma spanString_of_escaped {text : List Char} (h : Escaped text) (rest : List Char) :
    spanString (text ++ '"' :: rest) = (text ++ ['"'], rest) :=
  spanString_through h ('"' :: rest)

lemma next?_string {text : List Char} (h : Escaped text) (rest : List Char) :
    next? ('"' :: (text ++ '"' :: rest)) =
      some (⟨.string, String.ofList ('"' :: (text ++ ['"']))⟩, rest) := by
  have hskip : skipLayout false ('"' :: (text ++ '"' :: rest)) = '"' :: (text ++ '"' :: rest) := rfl
  rw [next?, hskip]
  simp only [spanString_of_escaped h]

lemma tokenize_of_next? {s rest : List Char} {t : Token} (h : next? s = some (t, rest)) :
    tokenize s = t :: tokenize rest := by
  rw [tokenize]
  split
  · next hnone => exact absurd (h.symm.trans hnone) (by simp)
  · next heq =>
      rw [h] at heq
      obtain ⟨rfl, rfl⟩ := Prod.mk.inj (Option.some.inj heq)
      rfl

lemma tokenize_of_next?_eq_none {s : List Char} (h : next? s = none) : tokenize s = [] := by
  rw [tokenize]
  split
  · rfl
  · next heq => exact absurd (h.symm.trans heq) (by simp)

/-- The tokens of a text are settled by the first of them and what stands behind it. -/
lemma tokenize_congr {s s' : List Char} (h : next? s = next? s') : tokenize s = tokenize s' := by
  cases hnext : next? s' with
  | none => rw [tokenize_of_next?_eq_none hnext, tokenize_of_next?_eq_none (h.trans hnext)]
  | some found => rw [tokenize_of_next? hnext, tokenize_of_next? (h.trans hnext)]

lemma tokenize_nil : tokenize [] = [] :=
  tokenize_of_next?_eq_none rfl

lemma tokenize_open (rest : List Char) :
    tokenize ('(' :: rest) = ⟨.openParen, "("⟩ :: tokenize rest :=
  tokenize_of_next? rfl

lemma tokenize_close (rest : List Char) :
    tokenize (')' :: rest) = ⟨.closeParen, ")"⟩ :: tokenize rest :=
  tokenize_of_next? rfl

/-- A blank in front of a text is layout. -/
lemma tokenize_blank (rest : List Char) : tokenize (' ' :: rest) = tokenize rest :=
  tokenize_congr rfl

end Token

/-! ### Reading an atom back -/

lemma isAtomChar_of_isDigit {c : Char} (h : c.isDigit = true) : Token.isAtomChar c = true := by
  obtain ⟨hlow, hhigh⟩ := Char.isDigit_iff_toNat.mp h
  have hzero : '0'.toNat = 48 := rfl
  have hnine : '9'.toNat = 57 := rfl
  have hblank : Text.isBlank c = false := by
    simp only [Text.isBlank, Text.blankRanges, Text.CodeRange.has, List.any_cons, List.any_nil,
      Bool.or_eq_false_iff, Bool.and_eq_false_iff, decide_eq_false_iff_not, and_true]
    omega
  have hne (d : Char) (hd : d.isDigit = false) : c ≠ d := by
    rintro rfl
    rw [h] at hd
    nomatch hd
  have hsep : Token.isSeparator c = false := by
    rw [Token.isSeparator, hblank, beq_false_of_ne (hne ',' rfl)]
    rfl
  exact Token.isAtomChar_of_delimits hsep (hne _ rfl) (hne _ rfl) (hne _ rfl) (hne _ rfl)

lemma isDigit_of_mem_toDigits {n : ℕ} {c : Char} (h : c ∈ Nat.toDigits 10 n) :
    c.isDigit = true :=
  Nat.isDigit_of_mem_toDigits (by decide) (by decide) h

lemma isAtom_decimal (n : ℤ) : IsAtom (Text.decimal n) := by
  cases n with
  | ofNat n =>
      exact ⟨Nat.toDigits_ne_nil, fun c hc => isAtomChar_of_isDigit (isDigit_of_mem_toDigits hc)⟩
  | negSucc n =>
      refine ⟨List.cons_ne_nil _ _, fun c hc => ?_⟩
      rcases List.mem_cons.mp hc with rfl | hc
      · decide
      · exact isAtomChar_of_isDigit (isDigit_of_mem_toDigits hc)

/-- A row of digits has no minus. -/
lemma toDigits_ne_minus (n : ℕ) (rest : List Char) : Nat.toDigits 10 n ≠ '-' :: rest := by
  intro heq
  have hminus : '-' ∈ Nat.toDigits 10 n := heq ▸ List.mem_cons_self
  exact absurd (isDigit_of_mem_toDigits hminus) (by decide)

lemma numeralDigits_toDigits (n : ℕ) : numeralDigits (Nat.toDigits 10 n) = Nat.toDigits 10 n := by
  unfold numeralDigits
  split
  · next heq => exact absurd heq (toDigits_ne_minus n _)
  · rfl

lemma numeralDigits_decimal (n : ℤ) :
    numeralDigits (Text.decimal n) = Nat.toDigits 10 n.natAbs := by
  cases n with
  | ofNat n => exact numeralDigits_toDigits n
  | negSucc n => rfl

lemma isNumeral_decimal (n : ℤ) : isNumeral (Text.decimal n) = true := by
  rw [isNumeral, numeralDigits_decimal, Bool.and_eq_true, List.all_eq_true, Bool.not_eq_true',
    List.isEmpty_eq_false_iff]
  exact ⟨Nat.toDigits_ne_nil, fun c hc => isDigit_of_mem_toDigits hc⟩

lemma numeralValue_decimal (n : ℤ) : numeralValue (Text.decimal n) = n := by
  cases n with
  | ofNat n =>
      rw [Text.decimal]
      unfold numeralValue
      split
      · next heq => exact absurd heq (toDigits_ne_minus n _)
      · rw [Nat.ofDigitChars_ten_toDigits]
        rfl
  | negSucc n =>
      rw [Text.decimal, numeralValue, Nat.ofDigitChars_ten_toDigits]
      rfl

/-- A text that is a numeral is none of the literals. -/
lemma ne_of_isNumeral {token word : String} (h : isNumeral token.toList = true)
    (hword : isNumeral word.toList = false) : token ≠ word := by
  rintro rfl
  rw [h] at hword
  nomatch hword

lemma readAtom_numeral {token : String} (h : isNumeral token.toList = true)
    (hdigits : (numeralDigits token.toList).length ≤ Text.digitLimit) :
    readAtom token = .ok (.int (numeralValue token.toList)) := by
  rw [readAtom, if_neg (ne_of_isNumeral h rfl), if_neg (ne_of_isNumeral h rfl),
    if_neg (ne_of_isNumeral h rfl), if_pos h]
  exact if_pos hdigits

lemma readAtom_long {token : String} (h : isNumeral token.toList = true)
    (hlong : Text.digitLimit < (numeralDigits token.toList).length) :
    readAtom token = .error (.longNumeral (numeralDigits token.toList).length) := by
  rw [readAtom, if_neg (ne_of_isNumeral h rfl), if_neg (ne_of_isNumeral h rfl),
    if_neg (ne_of_isNumeral h rfl), if_pos h]
  exact if_neg (Nat.not_le.mpr hlong)

/-- An integer within the digit limit is read back. -/
lemma readAtom_decimal {n : ℤ} (h : (Text.decimal? n).isSome) :
    readAtom (String.ofList (Text.decimal n)) = .ok (.int n) := by
  have hlimit : 0 < Text.digitLimit := by decide
  have hlength := (Text.decimalWithin?_isSome_iff hlimit n).mp h
  have hnumeral : isNumeral (String.ofList (Text.decimal n)).toList = true := by
    rw [String.toList_ofList]
    exact isNumeral_decimal n
  rw [readAtom_numeral hnumeral, String.toList_ofList, numeralValue_decimal]
  rwa [String.toList_ofList, numeralDigits_decimal]

lemma readAtom_symbol {name : String} (h : IsSymbol name) : readAtom name = .ok (.sym name) := by
  have hnumeral : ¬ isNumeral name.toList = true := by simp [h.not_numeral]
  rw [readAtom, if_neg h.ne_nil, if_neg h.ne_true, if_neg h.ne_false, if_neg hnumeral,
    if_neg h.not_keyword]

/-- A text with a leading colon is no numeral. -/
lemma isNumeral_of_colon {text : List Char} (h : text.head? = some ':') :
    isNumeral text = false := by
  obtain ⟨rest, rfl⟩ := List.head?_eq_some_iff.mp h
  rfl

lemma readAtom_keyword {name : String} (h : IsKeyword name) : readAtom name = .ok (.kw name) := by
  have hne (word : String) (hword : word.toList.head? ≠ some ':') : name ≠ word := by
    rintro rfl
    exact hword h.colon
  have hnumeral : ¬ isNumeral name.toList = true := by simp [isNumeral_of_colon h.colon]
  rw [readAtom, if_neg (hne _ (by decide)), if_neg (hne _ (by decide)), if_neg (hne _ (by decide)),
    if_neg hnumeral, if_pos h.colon]

/-- The text before a closing quote is read back. -/
lemma closedBody?_of_escaped {text : List Char} (h : Escaped text) :
    closedBody? (text ++ ['"']) = some text := by
  induction h with
  | nil => rfl
  | pair c _ ih =>
      rw [List.cons_append, List.cons_append, closedBody?, ih]
      rfl
  | char hquote hslash _ ih =>
      rw [List.cons_append, closedBody?.eq_5, ih]
      · rfl
      · exact fun heq _ => hquote heq
      · exact hquote
      · exact fun _ _ heq _ => hslash heq

lemma stringBody?_of_escaped {text : String} (h : Escaped text.toList) :
    stringBody? (String.ofList ('"' :: (text.toList ++ ['"']))) = some text := by
  rw [stringBody?, String.toList_ofList]
  simp only [closedBody?_of_escaped h, Option.map_some, String.ofList_toList]

/-! ### Reading on -/

namespace TokenStream

/-- The stream of the tokens of a text. -/
def ofChars (s : List Char) : TokenStream :=
  ofList (Token.tokenize s)

/-- A form arrives: reading goes on in the innermost open list, or the form is complete. -/
def deliver (v : Value) : OpenLists → TokenStream → Except ReadFault Value × TokenStream
  | [], s => (.ok v, s)
  | items :: outer, s => readOn ((v :: items) :: outer) s

variable {opened opened' : OpenLists} {t : Token} {ts : List Token} {v : Value} {f : ReadFault}

/-- Reading on by its next token. -/
lemma readOn_eq (opened : OpenLists) (s : TokenStream) :
    readOn opened s =
      match s.peek.1 with
      | none => (.error (if opened.isEmpty then .noForm else .unclosedList), s.peek.2)
      | some t =>
        match step opened t with
        | .more opened => readOn opened s.peek.2.advance.2
        | .done form => (.ok form, s.peek.2.advance.2)
        | .refused f => (.error f, s.peek.2)
        | .failed f => (.error f, s.peek.2.advance.2) := by
  rw [readOn]
  split
  · next hpeek => rw [hpeek]
  · next t hpeek =>
      cases hstep : step opened t <;> simp only [hpeek, hstep]

lemma readOn_more (h : step opened t = .more opened') :
    readOn opened (ofList (t :: ts)) = readOn opened' (ofList ts) := by
  rw [readOn_eq, peek_fst, remaining_ofList]
  simp only [List.head?_cons, h]
  rfl

lemma readOn_done (h : step opened t = .done v) :
    readOn opened (ofList (t :: ts)) = (.ok v, ofList ts) := by
  rw [readOn_eq, peek_fst, remaining_ofList]
  simp only [List.head?_cons, h]
  rfl

lemma readOn_refused (h : step opened t = .refused f) :
    readOn opened (ofList (t :: ts)) = (.error f, ⟨[t], ts⟩) := by
  rw [readOn_eq, peek_fst, remaining_ofList]
  simp only [List.head?_cons, h]
  rfl

lemma readOn_failed (h : step opened t = .failed f) :
    readOn opened (ofList (t :: ts)) = (.error f, ofList ts) := by
  rw [readOn_eq, peek_fst, remaining_ofList]
  simp only [List.head?_cons, h]
  rfl

/-- A token that gives a form delivers it. -/
lemma readOn_arrive (h : step opened t = arrive v opened') :
    readOn opened (ofList (t :: ts)) = deliver v opened' (ofList ts) := by
  cases opened' with
  | nil => exact readOn_done h
  | cons items outer => exact readOn_more h

/-- A stream from which a form is read has a next token. -/
lemma peek_fst_ne_none {s rest : TokenStream} (h : readOn opened s = (.ok v, rest)) :
    s.peek.1 ≠ none := by
  intro hpeek
  rw [readOn_eq, hpeek] at h
  nomatch h

end TokenStream

/-! ### Reading undoes printing -/

open TokenStream Token

namespace Value

/-- A value is printed, and its printed form is read back on any open lists, whatever follows it
that cannot continue an atom. -/
def ReadsBack (v : Value) : Prop :=
  ∃ chars, printChars v = .ok chars ∧
    ∀ opened rest, Boundary rest →
      readOn opened (ofChars (chars ++ rest)) = deliver v opened (ofChars rest)

/-- A leaf that is printed as an atom is read back when the atom is. -/
lemma readsBack_of_atom {v : Value} {text : List Char} (hprint : printChars v = .ok text)
    (hatom : IsAtom text) (hread : readAtom (String.ofList text) = .ok v) : v.ReadsBack := by
  refine ⟨text, hprint, fun opened rest hrest => ?_⟩
  have hstep : step opened ⟨.atom, String.ofList text⟩ = arrive v opened := by
    simp only [step, hread]
  rw [ofChars, tokenize_of_next? (next?_atom hatom hrest)]
  exact readOn_arrive hstep

lemma readsBack_of_string {text : String} (h : Escaped text.toList) : (str text).ReadsBack := by
  refine ⟨'"' :: text.toList ++ ['"'], rfl, fun opened rest _ => ?_⟩
  have hstep : step opened ⟨.string, String.ofList ('"' :: (text.toList ++ ['"']))⟩ =
      arrive (str text) opened := by
    simp only [step, stringBody?_of_escaped h]
  have happend : '"' :: text.toList ++ ['"'] ++ rest = '"' :: (text.toList ++ '"' :: rest) := by
    simp
  rw [happend, ofChars, tokenize_of_next? (next?_string h rest)]
  exact readOn_arrive hstep

/-- An integer within a digit limit is written by its digits. -/
lemma eq_decimal_of_decimalWithin? {limit : ℕ} {n : ℤ} {digits : List Char}
    (h : Text.decimalWithin? limit n = some digits) : digits = Text.decimal n := by
  unfold Text.decimalWithin? at h
  split at h
  · exact (Option.some.inj h).symm
  · nomatch h

lemma integerChars_eq {n : ℤ} (h : (Text.decimal? n).isSome) :
    integerChars n = .ok (Text.decimal n) := by
  unfold integerChars
  split
  · next digits hdigits => rw [eq_decimal_of_decimalWithin? hdigits]
  · next hnone => exact absurd h (Option.not_isSome_iff_eq_none.mpr hnone)

/-- A leaf of forms is read back. -/
lemma readsBack_of_isFormLeaf {v : Value} (h : v.IsFormLeaf) : v.ReadsBack := by
  cases v with
  | nil => exact readsBack_of_atom rfl (isAtom_of_all (by decide) rfl) rfl
  | bool b =>
      cases b with
      | true => exact readsBack_of_atom rfl (isAtom_of_all (by decide) rfl) rfl
      | false => exact readsBack_of_atom rfl (isAtom_of_all (by decide) rfl) rfl
  | int n =>
      have hprint : printChars (int n) = .ok (Text.decimal n) := by
        rw [printChars]
        exact integerChars_eq h
      exact readsBack_of_atom hprint (isAtom_decimal n) (readAtom_decimal h)
  | str text => exact readsBack_of_string h
  | sym name =>
      refine readsBack_of_atom rfl h.atom ?_
      rw [String.ofList_toList]
      exact readAtom_symbol h
  | kw name =>
      refine readsBack_of_atom rfl (IsKeyword.atom h) ?_
      rw [String.ofList_toList]
      exact readAtom_keyword h
  | list _ | builtin _ | closure _ _ _ | foreign _ => exact h.elim

/-- Items are read back one after the other into the innermost open list. -/
lemma readsBack_items {items : List Value} (h : ∀ v ∈ items, v.ReadsBack) :
    ∃ chars, printItems items = .ok chars ∧
      ∀ done outer rest, Boundary rest →
        readOn (done :: outer) (ofChars (chars ++ rest)) =
          readOn ((items.reverse ++ done) :: outer) (ofChars rest) := by
  induction items with
  | nil => exact ⟨[], rfl, fun _ _ _ _ => rfl⟩
  | cons v others ih =>
      obtain ⟨first, hfirst, hread⟩ := h v List.mem_cons_self
      cases others with
      | nil =>
          refine ⟨first, hfirst, fun done outer rest hrest => ?_⟩
          rw [hread _ _ hrest]
          rfl
      | cons w others =>
          obtain ⟨chars, hchars, hothers⟩ := ih fun u hu => h u (List.mem_cons_of_mem _ hu)
          refine ⟨first ++ ' ' :: chars, ?_, fun done outer rest hrest => ?_⟩
          · rw [printItems, hfirst, hchars]
            rfl
          · have hblank : Boundary (' ' :: (chars ++ rest)) := boundary_cons (by decide) _
            have happend : first ++ ' ' :: chars ++ rest = first ++ ' ' :: (chars ++ rest) := by
              simp
            have hskip : ofChars (' ' :: (chars ++ rest)) = ofChars (chars ++ rest) := by
              rw [ofChars, tokenize_blank, ofChars]
            rw [happend, hread _ _ hblank, hskip, deliver, hothers _ _ _ hrest]
            simp

/-- A list is read back when its items are. -/
lemma readsBack_list {items : List Value} (h : ∀ v ∈ items, v.ReadsBack) :
    (list items).ReadsBack := by
  obtain ⟨inner, hinner, hread⟩ := readsBack_items h
  refine ⟨'(' :: inner ++ [')'], ?_, fun opened rest _ => ?_⟩
  · rw [printChars, hinner]
    rfl
  · have happend : '(' :: inner ++ [')'] ++ rest = '(' :: (inner ++ ')' :: rest) := by simp
    have hopen : step opened ⟨.openParen, "("⟩ = .more ([] :: opened) := rfl
    have hclose : step ((items.reverse ++ []) :: opened) ⟨.closeParen, ")"⟩ =
        arrive (list items) opened := by
      simp only [step, List.append_nil, List.reverse_reverse]
    have hboundary : Boundary (')' :: rest) := boundary_cons (by decide) rest
    rw [happend, ofChars, tokenize_open, readOn_more hopen]
    have hitems := hread [] opened _ hboundary
    rw [ofChars, ofChars, tokenize_close] at hitems
    exact hitems.trans (readOn_arrive hclose)

/-- **Every readable form is read back.** -/
theorem Readable.readsBack {v : Value} (h : v.Readable) : v.ReadsBack := by
  induction h with
  | leaf _ h => exact readsBack_of_isFormLeaf h
  | list _ ih => exact readsBack_list ih

end Value

/-- A readable form is printed, and in front of a text that no atom goes on with it is the first
form of the pass. -/
lemma Value.Readable.readEvery_print {v : Value} (h : v.Readable) :
    ∃ text, v.print = .ok text ∧ ∀ rest, Boundary rest →
      readEvery [] (tokenize (text.toList ++ rest)) =
        (v :: (readEvery [] (tokenize rest)).1, (readEvery [] (tokenize rest)).2) := by
  obtain ⟨chars, hprint, hread⟩ := h.readsBack
  refine ⟨String.ofList chars, by rw [print_eq, hprint]; rfl, fun rest hrest => ?_⟩
  rw [String.toList_ofList]
  have hform : readOn [] (ofChars (chars ++ rest)) = (.ok v, ofChars rest) := hread [] rest hrest
  have hbegun : (ofChars (chars ++ rest)).remaining ≠ [] := by
    intro hnil
    have hpeek := peek_fst_ne_none hform
    rw [peek_fst, hnil] at hpeek
    exact hpeek rfl
  have hpass := readEvery_readOn [] (ofChars (chars ++ rest)) (.inr hbegun)
  rw [hform] at hpass
  exact hpass

/-- **Reading undoes printing** on readable forms. -/
theorem readAll_print {v : Value} (h : v.Readable) :
    ∃ text, v.print = .ok text ∧ readAll text = .ok [v] := by
  obtain ⟨text, hprint, hread⟩ := h.readEvery_print
  have hpass := hread [] boundary_nil
  rw [List.append_nil, tokenize_nil] at hpass
  exact ⟨text, hprint, readAll_of_tokens rfl hpass (List.cons_ne_nil _ _)⟩

end TinyLisp
