/-
Texts as renderings of their tokens.

A text is its tokens in order, each behind some layout, and some layout at the
end. What a token takes of the text is settled by the text behind it: an atom
goes on as far as it can, and a string to its closing quote or, if it has none,
to the end of the text. Every text is such a rendering, and of one row of tokens
only.

* `Token.IsLayout`, `Token.IsLastLayout`: layout in front of a token, and at the
  end of a text.
* `Token.IsWhole`, `Token.Takes`: the tokens that are complete in themselves, and
  what a token takes of a text.
* `Token.render`, `Token.Fits`: the text of tokens with their layout, and the
  renderings in which each token takes what it should.
* `Token.exists_render`, `Token.tokenize_render`: every text is such a rendering
  of its tokens, and of no others.
* `Token.Place`, `Token.Place.after`: whether a text ends in a comment or in a
  string, by a scan that knows no tokens.
* `text_renders_its_tokens` (**nothing is lost and nothing is invented**).
-/
import TinyLisp.Proofs.RoundTrip

namespace TinyLisp

namespace Token

/-! ### Layout -/

/-- Layout: separators, and comments each with the line break that ends it. -/
inductive IsLayout : List Char → Prop
  | nil : IsLayout []
  | separator {c : Char} {rest : List Char} (hc : isSeparator c = true) (h : IsLayout rest) :
      IsLayout (c :: rest)
  | comment {body rest : List Char} (hbody : '\n' ∉ body) (h : IsLayout rest) :
      IsLayout (';' :: (body ++ '\n' :: rest))

/-- Layout at the end of a text, where the last comment needs no line break. -/
inductive IsLastLayout : List Char → Prop
  | layout {s : List Char} (h : IsLayout s) : IsLastLayout s
  | comment {s body : List Char} (h : IsLayout s) (hbody : '\n' ∉ body) :
      IsLastLayout (s ++ ';' :: body)

/-- A comment goes on to its line break. -/
lemma skipLayout_comment {body : List Char} (h : '\n' ∉ body) (rest : List Char) :
    skipLayout true (body ++ rest) = skipLayout true rest := by
  induction body with
  | nil => rfl
  | cons c body ih =>
      have hgoes : (c != '\n') = true := bne_iff_ne.mpr (List.ne_of_not_mem_cons h).symm
      rw [List.cons_append, skipLayout, if_pos rfl, hgoes, ih (List.not_mem_of_not_mem_cons h)]

/-- Layout in front of a text is skipped. -/
lemma IsLayout.skipLayout_append {s : List Char} (h : IsLayout s) (rest : List Char) :
    skipLayout false (s ++ rest) = skipLayout false rest := by
  induction h with
  | nil => rfl
  | separator hc _ ih => simp [skipLayout, hc, ih]
  | @comment body s hbody _ ih =>
      have hsep : isSeparator ';' = false := rfl
      have happend : ';' :: (body ++ '\n' :: s) ++ rest = ';' :: (body ++ '\n' :: (s ++ rest)) := by
        simp
      rw [happend]
      simp [skipLayout, hsep, skipLayout_comment hbody, ih]

lemma IsLastLayout.skipLayout_eq_nil {s : List Char} (h : IsLastLayout s) :
    skipLayout false s = [] := by
  cases h with
  | layout h =>
      have hskip := h.skipLayout_append []
      rwa [List.append_nil] at hskip
  | @comment s body h hbody =>
      have hsep : isSeparator ';' = false := rfl
      have hskip := skipLayout_comment hbody []
      rw [List.append_nil] at hskip
      rw [h.skipLayout_append]
      simp [skipLayout, hsep, hskip]

lemma IsLayout.append {s rest : List Char} (h : IsLayout s) (hrest : IsLayout rest) :
    IsLayout (s ++ rest) := by
  induction h with
  | nil => exact hrest
  | separator hc _ ih => exact .separator hc ih
  | @comment body s hbody _ ih =>
      rw [List.cons_append, List.append_assoc]
      exact .comment hbody ih

lemma IsLastLayout.append {s rest : List Char} (h : IsLayout s) (hrest : IsLastLayout rest) :
    IsLastLayout (s ++ rest) := by
  cases hrest with
  | layout hrest => exact .layout (h.append hrest)
  | comment hrest hbody =>
      rw [← List.append_assoc]
      exact .comment (h.append hrest) hbody

/-- What is skipped in front of a text is layout, unless it is the whole of the text. -/
lemma exists_layout (s : List Char) :
    IsLastLayout s ∨ ∃ layout, IsLayout layout ∧ s = layout ++ skipLayout false s := by
  induction hlength : s.length using Nat.strong_induction_on generalizing s with
  | _ n ih =>
      -- layout at the front leaves a shorter text, to which the induction applies
      have hfront (front rest : List Char) (hs : s = front ++ rest) (hne : front ≠ [])
          (h : IsLayout front) :
          IsLastLayout s ∨ ∃ layout, IsLayout layout ∧ s = layout ++ skipLayout false s := by
        have hshorter : rest.length < n := by
          have := List.length_pos_iff.mpr hne
          rw [← hlength, hs, List.length_append]
          omega
        rw [hs, h.skipLayout_append]
        rcases ih _ hshorter rest rfl with hlast | ⟨layout, hlayout, hrest⟩
        · exact .inl (hlast.append h)
        · exact .inr ⟨front ++ layout, h.append hlayout, by rw [List.append_assoc, ← hrest]⟩
      cases s with
      | nil => exact .inl (.layout .nil)
      | cons c rest =>
          by_cases hsep : isSeparator c = true
          · exact hfront [c] rest rfl (List.cons_ne_nil _ _) (.separator hsep .nil)
          by_cases hsemi : c = ';'
          · subst hsemi
            by_cases hbreak : '\n' ∈ rest
            · obtain ⟨body, after, rfl, hbody⟩ := List.eq_append_cons_of_mem hbreak
              exact hfront (';' :: (body ++ ['\n'])) after (by simp) (List.cons_ne_nil _ _)
                (.comment hbody .nil)
            · exact .inl (.comment (s := []) .nil hbreak)
          · exact .inr ⟨[], .nil, by simp [skipLayout, hsep, hsemi]⟩

/-! ### What a token takes -/

/-- The tokens that are complete in themselves: parentheses, closed strings and atoms. -/
inductive IsWhole : Token → Prop
  | openParen : IsWhole ⟨.openParen, "("⟩
  | closeParen : IsWhole ⟨.closeParen, ")"⟩
  | string {body : List Char} (h : Escaped body) :
      IsWhole ⟨.string, String.ofList ('"' :: (body ++ ['"']))⟩
  | atom {text : List Char} (h : IsAtom text) : IsWhole ⟨.atom, String.ofList text⟩

/-- What a token takes of a text, by what it leaves of it: an atom leaves nothing that could go on
with it, and a string without a closing quote leaves nothing but a backslash at the end. -/
inductive Takes : Token → List Char → Prop
  | whole {t : Token} {rest : List Char} (h : t.IsWhole)
      (hatom : t.kind = .atom → Boundary rest) : Takes t rest
  | unclosed {body rest : List Char} (h : Escaped body) (hrest : rest = [] ∨ rest = ['\\']) :
      Takes ⟨.string, String.ofList ('"' :: body)⟩ rest

/-- A string takes an escaped text with its closing quote, or one to the end of the text. -/
lemma spanString_cases (s : List Char) :
    (∃ body, Escaped body ∧ (spanString s).1 = body ++ ['"']) ∨
      Escaped (spanString s).1 ∧ ((spanString s).2 = [] ∨ (spanString s).2 = ['\\']) := by
  fun_induction spanString s with
  | case1 => exact .inr ⟨.nil, .inl rfl⟩
  | case2 rest => exact .inl ⟨[], .nil, rfl⟩
  | case3 => exact .inr ⟨.nil, .inr rfl⟩
  | case4 c rest body after hspan ih =>
      rw [hspan] at ih
      rcases ih with ⟨body, hbody, rfl⟩ | ⟨hbody, hafter⟩
      · exact .inl ⟨_, .pair c hbody, rfl⟩
      · exact .inr ⟨.pair c hbody, hafter⟩
  | case5 c rest hquote hlast hslash body after hspan ih =>
      rw [hspan] at ih
      have hc : c ≠ '\\' := by
        rintro rfl
        cases rest with
        | nil => exact hlast rfl rfl
        | cons d rest => exact hslash d rest rfl rfl
      rcases ih with ⟨body, hbody, rfl⟩ | ⟨hbody, hafter⟩
      · exact .inl ⟨_, .char hquote hc hbody, rfl⟩
      · exact .inr ⟨.char hquote hc hbody, hafter⟩

/-- A string without a closing quote goes on to the end of the text. -/
lemma spanString_unclosed {body rest : List Char} (h : Escaped body)
    (hrest : rest = [] ∨ rest = ['\\']) : spanString (body ++ rest) = (body, rest) := by
  rw [spanString_through h]
  rcases hrest with rfl | rfl <;> simp [spanString]

lemma next?_append_layout {layout : List Char} (h : IsLayout layout) (s : List Char) :
    next? (layout ++ s) = next? s := by
  rw [next?, next?, h.skipLayout_append]

/-- Layout in front of a text has no tokens. -/
lemma tokenize_append_layout {layout : List Char} (h : IsLayout layout) (s : List Char) :
    tokenize (layout ++ s) = tokenize s :=
  tokenize_congr (next?_append_layout h s)

lemma next?_eq_none {s : List Char} (h : IsLastLayout s) : next? s = none := by
  rw [next?, h.skipLayout_eq_nil]

/-- **The first token of a text** is the one that takes what it should. -/
lemma Takes.next?_eq {t : Token} {rest : List Char} (h : t.Takes rest) :
    next? (t.text.toList ++ rest) = some (t, rest) := by
  cases h with
  | whole hwhole hatom =>
      cases hwhole with
      | openParen => rfl
      | closeParen => rfl
      | @string body hbody =>
          have happend : (String.ofList ('"' :: (body ++ ['"']))).toList ++ rest =
              '"' :: (body ++ '"' :: rest) := by simp
          rw [happend, next?_string hbody]
      | atom htext =>
          rw [String.toList_ofList, next?_atom htext (hatom rfl)]
  | @unclosed body rest hbody hrest =>
      have hskip : skipLayout false ('"' :: (body ++ rest)) = '"' :: (body ++ rest) := rfl
      rw [String.toList_ofList, List.cons_append, next?, hskip]
      simp only [spanString_unclosed hbody hrest]

lemma Takes.next?_behind {layout rest : List Char} {t : Token} (h : t.Takes rest)
    (hlayout : IsLayout layout) :
    next? (layout ++ (t.text.toList ++ rest)) = some (t, rest) := by
  rw [next?_append_layout hlayout, h.next?_eq]

/-- **Every text** is layout alone, or a token behind some layout that takes what it should. -/
lemma isLastLayout_or_takes (s : List Char) :
    IsLastLayout s ∨ ∃ (layout rest : List Char) (t : Token),
      IsLayout layout ∧ t.Takes rest ∧ s = layout ++ (t.text.toList ++ rest) := by
  rcases exists_layout s with hlast | ⟨layout, hlayout, hs⟩
  · exact .inl hlast
  cases hskip : skipLayout false s with
  | nil =>
      rw [hskip, List.append_nil] at hs
      exact .inl (hs ▸ .layout hlayout)
  | cons c rest =>
      -- the character that ends the layout begins a token, and decides which
      refine .inr ⟨layout, ?_⟩
      rw [hskip] at hs
      obtain ⟨hsep, hsemi⟩ := head_skipLayout hskip
      by_cases hopen : c = '('
      · subst hopen
        exact ⟨rest, _, hlayout, .whole .openParen nofun, hs⟩
      by_cases hclose : c = ')'
      · subst hclose
        exact ⟨rest, _, hlayout, .whole .closeParen nofun, hs⟩
      by_cases hquote : c = '"'
      · subst hquote
        have hrest := spanString_append rest
        rcases spanString_cases rest with ⟨body, hbody, hclosed⟩ | ⟨hbody, hafter⟩
        · refine ⟨(spanString rest).2, _, hlayout, .whole (.string hbody) nofun, ?_⟩
          rw [hs, String.toList_ofList, ← hclosed, List.cons_append, hrest]
        · refine ⟨(spanString rest).2, _, hlayout, .unclosed hbody hafter, ?_⟩
          rw [hs, String.toList_ofList, List.cons_append, hrest]
      · -- any other character belongs to an atom, which goes on up to its boundary
        have hc : isAtomChar c = true := isAtomChar_of_delimits hsep hopen hclose hsemi hquote
        have hatom : IsAtom ((c :: rest).takeWhile isAtomChar) := by
          refine ⟨?_, fun d hd => List.all_eq_true.mp List.all_takeWhile d hd⟩
          rw [List.takeWhile_cons_of_pos hc]
          exact List.cons_ne_nil _ _
        have hboundary : Boundary ((c :: rest).dropWhile isAtomChar) := by
          intro d hd
          have hnot := List.head?_dropWhile_not isAtomChar (c :: rest)
          rw [hd] at hnot
          exact hnot
        refine ⟨_, _, hlayout, .whole (.atom hatom) fun _ => hboundary, ?_⟩
        rw [hs, String.toList_ofList, List.takeWhile_append_dropWhile]

/-! ### Renderings -/

/-- The text of some tokens, each behind its layout, and of what stands at the end. -/
def render : List (List Char × Token) → List Char → List Char
  | [], last => last
  | (layout, t) :: placed, last => layout ++ (t.text.toList ++ render placed last)

/-- The renderings in which each token takes what it should. -/
def Fits : List (List Char × Token) → List Char → Prop
  | [], last => IsLastLayout last
  | (layout, t) :: placed, last => IsLayout layout ∧ t.Takes (render placed last) ∧ Fits placed last

/-- **A rendering** is cut into its tokens. -/
theorem tokenize_render {placed : List (List Char × Token)} {last : List Char}
    (h : Fits placed last) : tokenize (render placed last) = placed.map Prod.snd := by
  induction placed with
  | nil => exact tokenize_of_next?_eq_none (next?_eq_none h)
  | cons first placed ih =>
      obtain ⟨layout, t⟩ := first
      obtain ⟨hlayout, htakes, hrest⟩ := h
      rw [render, tokenize_of_next? (htakes.next?_behind hlayout), ih hrest, List.map_cons]

/-- **Every text** is a rendering of tokens that take what they should. -/
theorem exists_render (s : List Char) :
    ∃ placed last, Fits placed last ∧ render placed last = s := by
  induction hlength : s.length using Nat.strong_induction_on generalizing s with
  | _ n ih =>
      rcases isLastLayout_or_takes s with hlast | ⟨layout, rest, t, hlayout, htakes, rfl⟩
      · exact ⟨[], s, hlast, rfl⟩
      · have hshorter : rest.length < n :=
          hlength ▸ length_lt_of_next? (htakes.next?_behind hlayout)
        obtain ⟨placed, last, hfits, rfl⟩ := ih _ hshorter rest rfl
        exact ⟨(layout, t) :: placed, last, ⟨hlayout, htakes, hfits⟩, rfl⟩

lemma render_append (before placed : List (List Char × Token)) (last : List Char) :
    render (before ++ placed) last = render before (render placed last) := by
  induction before with
  | nil => rfl
  | cons first before ih => rw [List.cons_append, render, render, ih]

lemma mem_render {c : Char} {last : List Char} (placed : List (List Char × Token))
    (h : c ∈ last) : c ∈ render placed last := by
  induction placed with
  | nil => exact h
  | cons first placed ih => exact List.mem_append_right _ (List.mem_append_right _ ih)

/-- Each token of a rendering takes what it should of the text behind its layout. -/
lemma Fits.behind {before placed : List (List Char × Token)} {last : List Char}
    (h : Fits (before ++ placed) last) : Fits placed last := by
  induction before with
  | nil => exact h
  | cons first before ih => exact ih h.2.2

/-! ### Comments and strings by a scan -/

/-- Where a scan has come to in a text. -/
inductive Place where
  | outside
  | comment
  | string
  /-- In a string, behind a backslash, which takes the next character with it. -/
  | escape
  deriving DecidableEq

namespace Place

/-- The place behind one more character. -/
def next : Place → Char → Place
  | outside, c => if c = '"' then string else if c = ';' then comment else outside
  | comment, c => if c = '\n' then outside else comment
  | string, c => if c = '"' then outside else if c = '\\' then escape else string
  | escape, _ => string

/-- The place behind a text. -/
def after (p : Place) (s : List Char) : Place :=
  s.foldl next p

@[simp] lemma after_nil (p : Place) : p.after [] = p := rfl

@[simp] lemma after_cons (p : Place) (c : Char) (s : List Char) :
    p.after (c :: s) = (p.next c).after s := rfl

@[simp] lemma after_append (p : Place) (s s' : List Char) :
    p.after (s ++ s') = (p.after s).after s' := List.foldl_append

/-- A character of a class that holds neither quotes nor semicolons opens nothing. -/
lemma outside_next (p : Char → Bool) (hquote : p '"' = false) (hsemi : p ';' = false) {c : Char}
    (hc : p c = true) : outside.next c = outside := by
  have hne {d : Char} (hd : p d = false) : c ≠ d := by
    rintro rfl
    exact absurd hc (by simp [hd])
  simp [next, hne hquote, hne hsemi]

lemma comment_after {body : List Char} (h : '\n' ∉ body) : comment.after body = comment := by
  induction body with
  | nil => rfl
  | cons c body ih =>
      have hc : comment.next c = comment := if_neg (List.ne_of_not_mem_cons h).symm
      rw [after_cons, hc, ih (List.not_mem_of_not_mem_cons h)]

lemma string_after {body : List Char} (h : Escaped body) : string.after body = string := by
  induction h with
  | nil => rfl
  | pair c _ ih => exact ih
  | char hquote hslash _ ih =>
      rw [after_cons, next, if_neg hquote, if_neg hslash, ih]

lemma outside_after_layout {s : List Char} (h : IsLayout s) : outside.after s = outside := by
  induction h with
  | nil => rfl
  | separator hc _ ih => rw [after_cons, outside_next isSeparator rfl rfl hc, ih]
  | @comment body rest hbody _ ih =>
      have hopen : outside.next ';' = comment := rfl
      have hbreak : comment.next '\n' = outside := rfl
      rw [after_cons, hopen, after_append, comment_after hbody, after_cons, hbreak, ih]

lemma outside_after_atom {text : List Char} (h : ∀ c ∈ text, isAtomChar c = true) :
    outside.after text = outside := by
  induction text with
  | nil => rfl
  | cons c text ih =>
      obtain ⟨hc, htext⟩ := List.forall_mem_cons.mp h
      rw [after_cons, outside_next isAtomChar rfl rfl hc, ih htext]

lemma outside_after_whole {t : Token} (h : t.IsWhole) :
    outside.after t.text.toList = outside := by
  cases h with
  | openParen => rfl
  | closeParen => rfl
  | @string body hbody =>
      have hopen : outside.next '"' = string := rfl
      rw [String.toList_ofList, after_cons, hopen, after_append, string_after hbody]
      rfl
  | atom htext =>
      rw [String.toList_ofList]
      exact outside_after_atom htext.all

end Place

/-! ### Strings in a rendering -/

/-- A text with a quote that no backslash escapes. -/
def HasClosingQuote (s : List Char) : Prop :=
  ∃ body rest, Escaped body ∧ s = body ++ '"' :: rest

lemma not_hasClosingQuote {text rest : List Char} (h : Escaped text)
    (hrest : rest = [] ∨ rest = ['\\']) : ¬ HasClosingQuote (text ++ rest) := by
  rintro ⟨body, after, hbody, heq⟩
  have hspan := spanString_of_escaped hbody after
  rw [← heq, spanString_unclosed h hrest] at hspan
  have hplace := Place.string_after h
  rw [(Prod.mk.inj hspan).1, Place.after_append, Place.string_after hbody] at hplace
  nomatch hplace

section

variable {t : Token} {rest : List Char}

lemma Takes.text_ne_empty (h : t.Takes rest) : t.text ≠ "" := by
  intro hempty
  have hshorter := length_lt_of_next? h.next?_eq
  simp [hempty] at hshorter

/-- Behind a string without a closing quote there is no quote. -/
lemma Takes.isWhole (h : t.Takes rest) (hquote : '"' ∈ rest) : t.IsWhole := by
  cases h with
  | whole h _ => exact h
  | unclosed _ hrest => rcases hrest with rfl | rfl <;> simp at hquote

/-- A token that is closed, if it is a string, is complete in itself. -/
lemma Takes.isWhole_of_isClosed (h : t.Takes rest) (ht : t.IsClosed) : t.IsWhole := by
  cases h with
  | whole h _ => exact h
  | @unclosed body rest hbody _ =>
      obtain ⟨text, htext⟩ := Option.isSome_iff_exists.mp (ht rfl)
      rw [stringBody?, String.toList_ofList] at htext
      obtain ⟨inside, hinside, -⟩ := Option.map_eq_some_iff.mp htext
      refine absurd ?_ (not_hasClosingQuote hbody (.inl rfl))
      rw [List.append_nil]
      exact ⟨inside, [], escaped_of_closedBody? hinside, eq_of_closedBody? hinside⟩

lemma Takes.string_cases (h : t.Takes rest) (hkind : t.kind = .string) :
    ∃ body, Escaped body ∧ (t.text.toList = '"' :: (body ++ ['"']) ∨
      t.text.toList = '"' :: body ∧ ¬ HasClosingQuote (body ++ rest) ∧
        (rest = [] ∨ rest = ['\\'])) := by
  cases h with
  | whole h _ =>
      cases h with
      | openParen | closeParen | atom _ => nomatch hkind
      | @string body hbody => exact ⟨body, hbody, .inl String.toList_ofList⟩
  | @unclosed body rest hbody hrest =>
      exact ⟨body, hbody, .inr ⟨String.toList_ofList, not_hasClosingQuote hbody hrest, hrest⟩⟩

lemma Takes.quote_mem (h : t.Takes rest) (hkind : t.kind = .string) : '"' ∈ t.text.toList := by
  obtain ⟨body, -, htext | ⟨htext, -⟩⟩ := h.string_cases hkind
  all_goals
    rw [htext]
    exact List.mem_cons_self

lemma Takes.atom_cases (h : t.Takes rest) (hkind : t.kind = .atom) :
    IsAtom t.text.toList ∧ Boundary rest := by
  cases h with
  | whole h hatom =>
      cases h with
      | openParen | closeParen | string _ => nomatch hkind
      | atom htext => exact ⟨by rwa [String.toList_ofList], hatom rfl⟩
  | unclosed _ _ => nomatch hkind

end

/-- **A string starts outside of comments and of other strings.** -/
lemma Fits.outside_before_string {before after : List (List Char × Token)} {layout last : List Char}
    {t : Token} (h : Fits (before ++ (layout, t) :: after) last) (hkind : t.kind = .string) :
    Place.outside.after (render before layout) = .outside := by
  induction before with
  | nil => exact Place.outside_after_layout h.1
  | cons first before ih =>
      obtain ⟨layout', t'⟩ := first
      obtain ⟨hlayout, htakes, hrest⟩ := h
      have hquote : '"' ∈ render (before ++ (layout, t) :: after) last := by
        rw [render_append, render]
        refine mem_render _ (List.mem_append_right _ (List.mem_append_left _ ?_))
        exact hrest.behind.2.1.quote_mem hkind
      rw [render, Place.after_append, Place.after_append, Place.outside_after_layout hlayout,
        Place.outside_after_whole (htakes.isWhole hquote), ih hrest]

end Token

open Token

/-- **Nothing is lost and nothing is invented.** A text is its tokens in order, each behind some
layout, with layout at the end. No token is empty. An atom is made of the characters of atoms and
ends where the text does or goes on with no such character. A string starts outside of comments and
of other strings and goes on to its first quote that is not escaped; if it has none, nothing stands
behind it but a backslash at the end of the text. And a text is cut into tokens in no other way. -/
theorem text_renders_its_tokens (source : String) :
    (∃ placed last, render placed last = source.toList ∧ placed.map Prod.snd = ofSource source ∧
      IsLastLayout last ∧
      ∀ before layout t after, placed = before ++ (layout, t) :: after →
        IsLayout layout ∧ t.text ≠ "" ∧ t.Takes (render after last) ∧
        (t.kind = .atom → IsAtom t.text.toList ∧ Boundary (render after last)) ∧
        (t.kind = .string →
          Place.outside.after (render before layout) = .outside ∧
          ∃ body, Escaped body ∧ (t.text.toList = '"' :: (body ++ ['"']) ∨
            t.text.toList = '"' :: body ∧ ¬ HasClosingQuote (body ++ render after last) ∧
              (render after last = [] ∨ render after last = ['\\'])))) ∧
    ∀ placed last, Fits placed last → render placed last = source.toList →
      placed.map Prod.snd = ofSource source := by
  refine ⟨?_, fun placed last hfits hsource => ?_⟩
  · obtain ⟨placed, last, hfits, hsource⟩ := exists_render source.toList
    refine ⟨placed, last, hsource, ?_, ?_, ?_⟩
    · rw [ofSource, ← hsource, tokenize_render hfits]
    · have hend : Fits (placed ++ []) last := by rwa [List.append_nil]
      exact hend.behind
    · rintro before layout t after rfl
      obtain ⟨hlayout, htakes, -⟩ := hfits.behind
      exact ⟨hlayout, htakes.text_ne_empty, htakes, htakes.atom_cases,
        fun hkind => ⟨hfits.outside_before_string hkind, htakes.string_cases hkind⟩⟩
  · rw [ofSource, ← hsource, tokenize_render hfits]

end TinyLisp
