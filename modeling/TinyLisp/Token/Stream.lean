/-
A stream of tokens with one token of lookahead.

A stream is drawn from token by token. Peeking draws a token and holds it, so
that advancing returns the held token before it draws another one. The held
tokens are a list, which nothing but peeking makes longer.

* `TokenStream`: the held tokens and those not yet drawn, `remaining` both.
* `peek`, `advance`: the two moves, each said on `remaining`.
* `HoldsAtMostOne`: no more than one token is held; the two moves keep it so.
-/
import TinyLisp.Token.Basic

namespace TinyLisp

/-- Tokens to come: those that are held, the next one first, and those not yet drawn. -/
structure TokenStream where
  held : List Token
  pending : List Token

namespace TokenStream

/-- The stream of a list of tokens, none of them held. -/
def ofList (tokens : List Token) : TokenStream :=
  ⟨[], tokens⟩

/-- The tokens to come, in order. -/
def remaining (s : TokenStream) : List Token :=
  s.held ++ s.pending

/-- The next token. One is drawn, and then held, when none is held. -/
def peek (s : TokenStream) : Option Token × TokenStream :=
  match s.held, s.pending with
  | t :: _, _ => (some t, s)
  | [], [] => (none, s)
  | [], t :: pending => (some t, ⟨[t], pending⟩)

/-- The next token, which the stream then no longer has. One is drawn when none is held. -/
def advance (s : TokenStream) : Option Token × TokenStream :=
  match s.held, s.pending with
  | t :: held, pending => (some t, ⟨held, pending⟩)
  | [], [] => (none, s)
  | [], t :: pending => (some t, ⟨[], pending⟩)

/-! ### The moves on the tokens to come -/

@[simp] theorem remaining_ofList (tokens : List Token) : (ofList tokens).remaining = tokens := rfl

@[simp] theorem peek_fst : ∀ s : TokenStream, s.peek.1 = s.remaining.head?
  | ⟨_ :: _, _⟩ => rfl
  | ⟨[], []⟩ => rfl
  | ⟨[], _ :: _⟩ => rfl

@[simp] theorem remaining_peek : ∀ s : TokenStream, s.peek.2.remaining = s.remaining
  | ⟨_ :: _, _⟩ => rfl
  | ⟨[], []⟩ => rfl
  | ⟨[], _ :: _⟩ => rfl

@[simp] theorem advance_fst : ∀ s : TokenStream, s.advance.1 = s.remaining.head?
  | ⟨_ :: _, _⟩ => rfl
  | ⟨[], []⟩ => rfl
  | ⟨[], _ :: _⟩ => rfl

@[simp] theorem remaining_advance : ∀ s : TokenStream, s.advance.2.remaining = s.remaining.tail
  | ⟨_ :: _, _⟩ => rfl
  | ⟨[], []⟩ => rfl
  | ⟨[], _ :: _⟩ => rfl

/-! ### The held tokens -/

/-- No more than one token is held. -/
def HoldsAtMostOne (s : TokenStream) : Prop :=
  s.held.length ≤ 1

theorem holdsAtMostOne_ofList (tokens : List Token) : (ofList tokens).HoldsAtMostOne :=
  Nat.zero_le 1

/-- Peeking holds a token only where none was held. -/
theorem HoldsAtMostOne.peek : ∀ {s : TokenStream}, s.HoldsAtMostOne → s.peek.2.HoldsAtMostOne
  | ⟨_ :: _, _⟩, h => h
  | ⟨[], []⟩, h => h
  | ⟨[], _ :: _⟩, _ => Nat.le_refl 1

theorem HoldsAtMostOne.advance :
    ∀ {s : TokenStream}, s.HoldsAtMostOne → s.advance.2.HoldsAtMostOne
  | ⟨_ :: _, _⟩, h => Nat.le_of_succ_le h
  | ⟨[], []⟩, h => h
  | ⟨[], _ :: _⟩, h => h

end TokenStream

end TinyLisp
