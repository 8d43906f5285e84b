/-
Tokens.

A token is a piece of source text with the kind that decides how it is read. A
token made by hand may have a kind that no source text gives; it is read as an
atom.

* `TokenKind`, `Token`: the tokens.
* `TokenKind.name`: the name of a kind.
-/
namespace TinyLisp

/-- The kinds of token. -/
inductive TokenKind where
  | openParen
  | closeParen
  | string
  | atom
  /-- A kind that no source text gives. -/
  | other (name : String)
  deriving DecidableEq

namespace TokenKind

/-- The name of a kind. -/
def name : TokenKind → String
  | openParen => "lparen"
  | closeParen => "rparen"
  | string => "string"
  | atom => "atom"
  | other name => name

/-- The kind of a name. -/
def ofName : String → TokenKind
  | "lparen" => openParen
  | "rparen" => closeParen
  | "string" => string
  | "atom" => atom
  | name => other name

/-- A name determines its kind. -/
theorem name_ofName (name : String) : (ofName name).name = name := by
  unfold ofName
  split <;> rfl

end TokenKind

/-- A piece of source text with its kind. -/
structure Token where
  kind : TokenKind
  text : String
  deriving DecidableEq

end TinyLisp
