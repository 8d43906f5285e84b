/-
Cutting a text into tokens.

Between tokens stands the layout: white space, commas, and comments from a
semicolon to the end of the line. A string runs to its first quote that no
backslash escapes, or as far as it can; an atom is a maximal run of characters
that neither separate nor delimit.

* `skipLayout`, `spanString`: the layout at the front of a text, and the part of
  a string after its opening quote.
* `next?`: the first token of a text and the text after it, which is shorter
  (`length_lt_of_next?`).
* `tokenize`: all tokens of a text.
-/
import TinyLisp.Token.Basic
import TinyLisp.Text.Blank

namespace TinyLisp.Token

/-- White space and commas separate tokens. -/
def isSeparator (c : Char) : Bool :=
  Text.isBlank c || c == ','

/-- The characters of an atom neither separate nor delimit. -/
def isAtomChar (c : Char) : Bool :=
  !isSeparator c && !(['(', ')', ';', '"'].contains c)

/-- The text after the layout at its front; `comment` tells whether it starts inside a comment. -/
def skipLayout (comment : Bool) : List Char → List Char
  | [] => []
  | c :: rest =>
    if comment then skipLayout (c != '\n') rest
    else if isSeparator c then skipLayout false rest
    else if c == ';' then skipLayout true rest
    else c :: rest

/-- The part of a string after its opening quote, and the text after the string. A backslash takes
the next character with it; one at the end of the text is left over. -/
def spanString : List Char → List Char × List Char
  | [] => ([], [])
  | '"' :: rest => (['"'], rest)
  | ['\\'] => ([], ['\\'])
  | '\\' :: c :: rest =>
    let (body, after) := spanString rest
    ('\\' :: c :: body, after)
  | c :: rest =>
    let (body, after) := spanString rest
    (c :: body, after)

/-- The first token of a text, and the text after it. -/
def next? (s : List Char) : Option (Token × List Char) :=
  match skipLayout false s with
  | [] => none
  | '(' :: rest => some (⟨.openParen, "("⟩, rest)
  | ')' :: rest => some (⟨.closeParen, ")"⟩, rest)
  | '"' :: rest =>
    let (body, after) := spanString rest
    some (⟨.string, String.ofList ('"' :: body)⟩, after)
  | c :: rest =>
    some (⟨.atom, String.ofList (c :: rest.takeWhile isAtomChar)⟩, rest.dropWhile isAtomChar)

/-! ### Each token shortens the text -/

theorem length_skipLayout_le (comment : Bool) (s : List Char) :
    (skipLayout comment s).length ≤ s.length := by
  fun_induction skipLayout comment s <;> simp_all <;> omega

/-- A string and the text after it are the text they were cut from. -/
theorem spanString_append (s : List Char) : (spanString s).1 ++ (spanString s).2 = s := by
  fun_induction spanString s <;> simp_all

theorem length_spanString_le (s : List Char) : (spanString s).2.length ≤ s.length := by
  have h := congrArg List.length (spanString_append s)
  rw [List.length_append] at h
  omega

/-- The text after the first token is shorter. -/
theorem length_lt_of_next? {s rest : List Char} {t : Token} (h : next? s = some (t, rest)) :
    rest.length < s.length := by
  have hle := length_skipLayout_le false s
  rw [next?] at h
  split at h
  · contradiction
  · next heq => grind
  · next heq => grind
  · next r heq =>
    have := length_spanString_le r
    grind
  · next c r _ _ _ heq =>
    have := (List.dropWhile_suffix isAtomChar (l := r)).length_le
    grind

/-- All tokens of a text. -/
def tokenize (s : List Char) : List Token :=
  match h : next? s with
  | none => []
  | some (t, rest) =>
    have := length_lt_of_next? h
    t :: tokenize rest
termination_by s.length

/-- All tokens of a source text. -/
def ofSource (source : String) : List Token :=
  tokenize source.toList

end TinyLisp.Token
