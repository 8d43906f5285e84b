/-
The reader against a scan of the tokens.

Reading keeps the lists that are open, each with its items. Whether a text can be
read needs less: a scan of its tokens that counts how many lists are open. The
scan meets the same first fault as the reader, and where it meets none there is a
form for each token after which no list is open, and the forms, written out as
tokens again, are the tokens of the text but for the spelling of integers.

* `IsClosedLiteral`, `scanToken`, `scan`: the scan, which knows no values.
* `scanToken_eq_step`, `scanFrom_eq_readEvery`: it goes as the pass of the reader.
* `Value.tokens`, `Token.canonical`: a form as tokens, and a token with its
  integer in the usual spelling.
* `tokens_step`, `ReadsWhole.tokens_eq`: each token is kept by the lists that it
  leaves open, so a pass that ends well keeps all of them.
* `reading_agrees_with_scan` (**the reader and the scan agree**).
-/
import TinyLisp.Proofs.RoundTrip

namespace TinyLisp

/-! ### The scan -/

/-- The text of a closed string: quotes around an escaped text. -/
def IsClosedLiteral (text : String) : Prop :=
  ∃ body, Escaped body ∧ text.toList = '"' :: (body ++ ['"'])

/-- The text of a closed string is its quotes and what is between them. -/
lemma eq_of_stringBody? {text body : String} (h : stringBody? text = some body) :
    text.toList = '"' :: (body.toList ++ ['"']) := by
  unfold stringBody? at h
  split at h
  · next rest htext =>
      obtain ⟨chars, hchars, rfl⟩ := Option.map_eq_some_iff.mp h
      rw [htext, eq_of_closedBody? hchars, String.toList_ofList]
  · nomatch h

lemma stringBody?_isSome_iff (text : String) :
    (stringBody? text).isSome ↔ IsClosedLiteral text := by
  refine ⟨fun h => ?_, ?_⟩
  · obtain ⟨body, hbody⟩ := Option.isSome_iff_exists.mp h
    exact ⟨body.toList, escaped_of_stringBody? hbody, eq_of_stringBody? hbody⟩
  · rintro ⟨body, hbody, htext⟩
    simp only [stringBody?, htext, closedBody?_of_escaped hbody, Option.map_some,
      Option.isSome_some]

instance (text : String) : Decidable (IsClosedLiteral text) :=
  decidable_of_iff _ (stringBody?_isSome_iff text)

/-- The number of digits of a numeral over the digit limit. -/
def overlongDigits? (text : String) : Option ℕ :=
  let digits := (numeralDigits text.toList).length
  if isNumeral text.toList ∧ Text.digitLimit < digits then some digits else none

/-- The number of open lists after a token, or the fault that the token is. -/
def scanToken (depth : ℕ) (t : Token) : Except ReadFault ℕ :=
  match t.kind with
  | .openParen => .ok (depth + 1)
  | .closeParen => if depth = 0 then .error .strayClose else .ok (depth - 1)
  | .string => if IsClosedLiteral t.text then .ok depth else .error (.unclosedString t.text)
  | .atom | .other _ =>
    match overlongDigits? t.text with
    | some digits => .error (.longNumeral digits)
    | none => .ok depth

/-- The numbers of open lists after each of some tokens, of which none may be open at the end, or
the first fault. -/
def scanFrom (depth : ℕ) : List Token → Except ReadFault (List ℕ)
  | [] => if depth = 0 then .ok [] else .error .unclosedList
  | t :: rest =>
    match scanToken depth t with
    | .ok next => (scanFrom next rest).map (next :: ·)
    | .error f => .error f

/-- The scan of all tokens of a text, of which there has to be one. -/
def scan (tokens : List Token) : Except ReadFault (List ℕ) :=
  if tokens.isEmpty then .error .noForm else scanFrom 0 tokens

/-! ### The scan goes as the pass -/

lemma map_eq_error_iff {α β : Type} {g : α → β} {x : Except ReadFault α} {f : ReadFault} :
    x.map g = .error f ↔ x = .error f := by
  cases x <;> simp [Except.map]

lemma readAtom_of_overlong {text : String} {digits : ℕ} (h : overlongDigits? text = some digits) :
    readAtom text = .error (.longNumeral digits) := by
  unfold overlongDigits? at h
  simp only [Option.ite_none_right_eq_some, Option.some.injEq] at h
  obtain ⟨⟨hnumeral, hlong⟩, rfl⟩ := h
  exact readAtom_long hnumeral hlong

lemma exists_readAtom {text : String} (h : overlongDigits? text = none) :
    ∃ v, readAtom text = .ok v := by
  unfold overlongDigits? at h
  simp only [ite_eq_right_iff, reduceCtorEq, imp_false, not_and, Nat.not_lt] at h
  by_cases hnumeral : isNumeral text.toList = true
  · exact ⟨_, readAtom_numeral hnumeral (h hnumeral)⟩
  · unfold readAtom
    rw [if_neg hnumeral]
    split_ifs <;> exact ⟨_, rfl⟩

/-- What a step leaves to the scan: the number of lists that it leaves open, or its fault. -/
def Step.depth : Step → Except ReadFault ℕ
  | .more opened => .ok opened.length
  | .done _ => .ok 0
  | .refused f | .failed f => .error f

/-- An item that arrives leaves as many lists open as there were. -/
lemma depth_arrive (v : Value) (opened : OpenLists) :
    (arrive v opened).depth = .ok opened.length := by
  cases opened <;> rfl

/-- **One token**: the scan sees what the reader does with it. -/
lemma scanToken_eq_step (opened : OpenLists) (t : Token) :
    scanToken opened.length t = (step opened t).depth := by
  obtain ⟨kind, text⟩ := t
  cases kind with
  | openParen => rfl
  | closeParen =>
      cases opened with
      | nil => rfl
      | cons items outer => exact (depth_arrive _ outer).symm
  | string =>
      simp only [scanToken, step]
      cases hbody : stringBody? text with
      | none =>
          have hnot : ¬ IsClosedLiteral text := by simp [← stringBody?_isSome_iff, hbody]
          rw [if_neg hnot]
          rfl
      | some body =>
          have hclosed : IsClosedLiteral text := by simp [← stringBody?_isSome_iff, hbody]
          rw [if_pos hclosed]
          exact (depth_arrive _ opened).symm
  | atom | other name =>
      simp only [scanToken, step]
      cases hdigits : overlongDigits? text with
      | some digits =>
          rw [readAtom_of_overlong hdigits]
          rfl
      | none =>
          obtain ⟨v, hv⟩ := exists_readAtom hdigits
          rw [hv]
          exact (depth_arrive v opened).symm

/-- The tokens so far after which no list is open, with one token more. -/
lemma map_count_cons (next : ℕ) (depths : Except ReadFault (List ℕ)) :
    (depths.map (next :: ·)).map (List.count 0) =
      (depths.map (List.count 0)).map (· + if next = 0 then 1 else 0) := by
  cases depths with
  | error f => rfl
  | ok depths => simp [Except.map, List.count_cons]

/-- **All tokens**: the scan meets the fault of the pass, or it counts the forms of the pass. -/
lemma scanFrom_eq_readEvery (opened : OpenLists) (ts : List Token) :
    (scanFrom opened.length ts).map (List.count 0) =
      match readEvery opened ts with
      | (forms, none) => .ok forms.length
      | (_, some f) => .error f := by
  induction ts generalizing opened with
  | nil => cases opened <;> rfl
  | cons t ts ih =>
      rw [scanFrom, scanToken_eq_step]
      cases hstep : step opened t with
      | more next =>
          have hpos : next.length ≠ 0 := by simpa using step_more_ne_nil hstep
          rw [readEvery_more hstep, Step.depth, ← ih next]
          simp only [map_count_cons, if_neg hpos, Nat.add_zero]
          cases (scanFrom next.length ts).map (List.count 0) <;> rfl
      | done form =>
          have hrest := ih []
          rw [List.length_nil] at hrest
          rw [readEvery_done hstep, Step.depth]
          simp only [map_count_cons, if_true, hrest]
          rcases readEvery [] ts with ⟨forms, _ | f⟩ <;> rfl
      | refused f =>
          rw [readEvery_refused hstep]
          rfl
      | failed f =>
          rw [readEvery_failed hstep]
          rfl

/-- A pass that ends well and has begun gives a form. -/
lemma ReadsWhole.ne_nil {opened : OpenLists} {ts : List Token} {forms : List Value}
    (h : ReadsWhole opened ts forms) (hbegun : opened ≠ [] ∨ ts ≠ []) : forms ≠ [] := by
  induction h with
  | nil => simp at hbegun
  | more hstep _ ih => exact ih (.inl (step_more_ne_nil hstep))
  | done => exact List.cons_ne_nil _ _

/-- A text without tokens has no form. -/
lemma readAll_of_no_tokens {source : String} (h : Token.ofSource source = []) :
    readAll source = .error .noForm := by
  have hforms := TokenStream.readForms_eq (.ofList (Token.ofSource source))
  rw [TokenStream.remaining_ofList, h, readEvery_nil] at hforms
  rw [readAll, h]
  split
  · next heq =>
      rw [heq] at hforms
      cases (Prod.mk.inj hforms).2
  · rfl
  · next forms rest hne heq =>
      rw [heq] at hforms
      exact absurd (Prod.mk.inj hforms).1 hne

/-- **The reader fails as the scan does**, and reads as many forms as the scan counts. -/
lemma map_length_readAll (source : String) :
    (readAll source).map List.length =
      (scan (Token.ofSource source)).map (List.count 0) := by
  cases htokens : Token.ofSource source with
  | nil =>
      rw [readAll_of_no_tokens htokens]
      rfl
  | cons t ts =>
      have hscan := scanFrom_eq_readEvery [] (Token.ofSource source)
      rw [htokens] at hscan
      rw [scan, List.isEmpty_cons, if_neg Bool.false_ne_true]
      refine Eq.trans ?_ hscan.symm
      rcases hpass : readEvery [] (t :: ts) with ⟨forms, _ | f⟩
      · have hwhole := readsWhole_of_readEvery hpass
        have hread := readAll_eq_ok_iff.mpr
          ⟨htokens ▸ hwhole, hwhole.ne_nil (.inr (List.cons_ne_nil _ _))⟩
        rw [hread]
        rfl
      · rw [readAll_eq_error (htokens ▸ hpass)]
        rfl

/-! ### Forms as tokens -/

namespace Value

mutual

/-- A form as tokens. What cannot be read has none. -/
def tokens : Value → List Token
  | list items => ⟨.openParen, "("⟩ :: tokensOfItems items ++ [⟨.closeParen, ")"⟩]
  | str text => [⟨.string, String.ofList ('"' :: (text.toList ++ ['"']))⟩]
  | nil => [⟨.atom, "nil"⟩]
  | bool true => [⟨.atom, "true"⟩]
  | bool false => [⟨.atom, "false"⟩]
  | int n => [⟨.atom, String.ofList (Text.decimal n)⟩]
  | sym name | kw name => [⟨.atom, name⟩]
  | builtin _ | closure _ _ _ | foreign _ => []

/-- The items of a list as tokens. -/
def tokensOfItems : List Value → List Token
  | [] => []
  | v :: rest => tokens v ++ tokensOfItems rest

end

lemma tokensOfItems_eq (items : List Value) : tokensOfItems items = items.flatMap tokens := by
  induction items with
  | nil => rfl
  | cons v rest ih => rw [tokensOfItems, ih, List.flatMap_cons]

end Value

/-- A token with its integer, if it is one, in the usual spelling: without leading zeros, and
without a sign on zero. -/
def Token.canonical (t : Token) : Token :=
  if t.kind = .atom ∧ isNumeral t.text.toList then
    ⟨.atom, String.ofList (Text.decimal (numeralValue t.text.toList))⟩
  else t

/-- A token as a text gives it: the text of a parenthesis is that parenthesis. -/
def Token.Spelled (t : Token) : Prop :=
  match t.kind with
  | .openParen => t.text = "("
  | .closeParen => t.text = ")"
  | .string | .atom => True
  | .other _ => False

lemma Token.spelled_of_next? {s rest : List Char} {t : Token} (h : next? s = some (t, rest)) :
    t.Spelled := by
  rw [next?] at h
  split at h
  · cases h
  all_goals
    obtain ⟨rfl, -⟩ := Prod.mk.inj (Option.some.inj h)
    trivial

/-- An atom is read as a form that is written as this atom, but for the spelling of integers. -/
lemma tokens_of_readAtom {text : String} {v : Value} (h : readAtom text = .ok v) :
    v.tokens = [Token.canonical ⟨.atom, text⟩] := by
  unfold readAtom at h
  simp only at h
  split_ifs at h with hnil htrue hfalse hnum hdigits hcolon
  · obtain rfl := Except.ok.inj h
    rw [hnil]
    rfl
  · obtain rfl := Except.ok.inj h
    rw [htrue]
    rfl
  · obtain rfl := Except.ok.inj h
    rw [hfalse]
    rfl
  all_goals
    obtain rfl := Except.ok.inj h
    simp [Value.tokens, Token.canonical, hnum]

/-- The tokens that some open lists hold, from the outermost list on. -/
def OpenLists.tokens : OpenLists → List Token
  | [] => []
  | items :: outer =>
    OpenLists.tokens outer ++ ⟨.openParen, "("⟩ :: items.reverse.flatMap Value.tokens

/-- The tokens that a step has kept. -/
def Step.tokens : Step → List Token
  | .more opened => OpenLists.tokens opened
  | .done form => form.tokens
  | .refused _ | .failed _ => []

lemma tokens_arrive (v : Value) (opened : OpenLists) :
    (arrive v opened).tokens = OpenLists.tokens opened ++ v.tokens := by
  cases opened with
  | nil => rfl
  | cons items outer => simp [arrive, Step.tokens, OpenLists.tokens]

/-- **A token that is taken is kept**, in the lists that it leaves open or in the form. -/
lemma tokens_step {opened next : OpenLists} {t : Token} (ht : t.Spelled)
    (h : (step opened t).LeavesOpen next) :
    (step opened t).tokens = OpenLists.tokens opened ++ [t.canonical] := by
  obtain ⟨kind, text⟩ := t
  cases kind with
  | openParen =>
      obtain rfl : text = "(" := ht
      rfl
  | closeParen =>
      obtain rfl : text = ")" := ht
      cases opened with
      | nil => cases h
      | cons items outer =>
          rw [step, tokens_arrive]
          simp [OpenLists.tokens, Value.tokens, Value.tokensOfItems_eq, Token.canonical]
  | string =>
      simp only [step] at h ⊢
      cases hbody : stringBody? text with
      | none =>
          rw [hbody] at h
          cases h
      | some body =>
          have htext := congrArg String.ofList (eq_of_stringBody? hbody)
          rw [String.ofList_toList] at htext
          refine (tokens_arrive (.str body) opened).trans ?_
          rw [Value.tokens, ← htext]
          rfl
  | atom =>
      simp only [step] at h ⊢
      cases hread : readAtom text with
      | error f =>
          rw [hread] at h
          cases h
      | ok v => exact (tokens_arrive v opened).trans (by rw [tokens_of_readAtom hread])
  | other name => exact ht.elim

/-- **A pass that ends well keeps every token**: the forms, behind the tokens of the lists that
were open, are the tokens of the pass. -/
theorem ReadsWhole.tokens_eq {opened : OpenLists} {ts : List Token} {forms : List Value}
    (h : ReadsWhole opened ts forms) (hts : ∀ t ∈ ts, t.Spelled) :
    forms.flatMap Value.tokens = OpenLists.tokens opened ++ ts.map Token.canonical := by
  induction h with
  | nil => rfl
  | @more opened next t ts forms hstep _ ih =>
      obtain ⟨ht, hrest⟩ := List.forall_mem_cons.mp hts
      have hkept := tokens_step ht (hstep ▸ Step.LeavesOpen.more next)
      rw [hstep] at hkept
      rw [ih hrest, List.map_cons, List.append_cons, ← hkept]
      rfl
  | @done opened t ts form forms hstep _ ih =>
      obtain ⟨ht, hrest⟩ := List.forall_mem_cons.mp hts
      have hkept := tokens_step ht (hstep ▸ Step.LeavesOpen.done form)
      rw [hstep] at hkept
      rw [List.flatMap_cons, ih hrest, List.map_cons, List.append_cons, ← hkept]
      rfl

/-- **The reader agrees with the scan.** A text cannot be read exactly when the scan of its tokens
meets a fault, and then it is the first one. A text that can be read gives as many forms as there
are tokens after which no list is open, and the forms written out are the tokens of the text, each
integer in its usual spelling. The faults of the scan are worded as stated. -/
theorem reading_agrees_with_scan (source : String) :
    (∀ f, readAll source = .error f ↔ scan (Token.ofSource source) = .error f) ∧
    (∀ forms, readAll source = .ok forms →
      (∃ depths, scan (Token.ofSource source) = .ok depths ∧ forms.length = depths.count 0) ∧
      forms.flatMap Value.tokens = (Token.ofSource source).map Token.canonical) ∧
    (ReadFault.noForm.kind = .parse ∧ ReadFault.noForm.message = "No tokens found") ∧
    (ReadFault.strayClose.kind = .unexpectedToken ∧
      ReadFault.strayClose.message = "Unexpected ')'") ∧
    (ReadFault.unclosedList.kind = .unexpectedToken ∧
      ReadFault.unclosedList.message = "Expected ')' but found EOF") ∧
    (∀ token, (ReadFault.unclosedString token).kind = .parse ∧
      (ReadFault.unclosedString token).message =
        "Unbalanced string: expected '\"', got EOF in " ++ token) ∧
    ∀ digits, (ReadFault.longNumeral digits).kind = .value := by
  have hmap := map_length_readAll source
  have hspelled : ∀ t ∈ Token.ofSource source, t.Spelled :=
    Token.forall_mem_tokenize Token.spelled_of_next? _
  refine ⟨fun f => ?_, fun forms hread => ?_, ⟨rfl, rfl⟩, ⟨rfl, rfl⟩, ⟨rfl, rfl⟩,
    fun _ => ⟨rfl, rfl⟩, fun _ => rfl⟩
  · rw [← map_eq_error_iff (g := List.length), hmap, map_eq_error_iff]
  · have htokens := (readAll_eq_ok_iff.mp hread).1.tokens_eq hspelled
    rw [hread] at hmap
    cases hscan : scan (Token.ofSource source) with
    | error f =>
        rw [hscan] at hmap
        nomatch hmap
    | ok depths =>
        rw [hscan] at hmap
        exact ⟨⟨depths, rfl, Except.ok.inj hmap⟩, htokens⟩

/-- Two forms: a list in which one list is open twice, and an integer. -/
example : scan [⟨.openParen, "("⟩, ⟨.openParen, "("⟩, ⟨.closeParen, ")"⟩, ⟨.closeParen, ")"⟩,
    ⟨.atom, "007"⟩] = .ok [1, 2, 1, 0, 0] := by
  rfl

end TinyLisp
