/-
White space.

The reader separates atoms at white space, a line of nothing else is blank, and
a numeric setting is stripped of it at both ends. All three mean the same set of
characters, given here by its ranges of code points.

* `CodeRange`: an interval of code points, both ends included.
* `isBlank`: membership in the white space.
* `strip`: a text without the white space at its two ends.
-/
namespace TinyLisp.Text

/-- An interval of code points, both ends included. -/
structure CodeRange where
  low : Nat
  high : Nat

/-- Whether a character lies in the interval. -/
def CodeRange.has (r : CodeRange) (c : Char) : Bool :=
  r.low ≤ c.toNat && c.toNat ≤ r.high

/-- The white space, by code point. -/
def blankRanges : List CodeRange :=
  [⟨0x09, 0x0d⟩, ⟨0x1c, 0x20⟩, ⟨0x85, 0x85⟩, ⟨0xa0, 0xa0⟩, ⟨0x1680, 0x1680⟩, ⟨0x2000, 0x200a⟩,
   ⟨0x2028, 0x2029⟩, ⟨0x202f, 0x202f⟩, ⟨0x205f, 0x205f⟩, ⟨0x3000, 0x3000⟩]

/-- Whether a character is white space. -/
def isBlank (c : Char) : Bool :=
  blankRanges.any (·.has c)

/-- A text without the white space at its two ends. -/
def strip (s : List Char) : List Char :=
  ((s.dropWhile isBlank).reverse.dropWhile isBlank).reverse

theorem isBlank_of_mem_takeWhile {c : Char} {s : List Char} (h : c ∈ s.takeWhile isBlank) :
    isBlank c = true :=
  List.all_eq_true.mp List.all_takeWhile c h

/-- Nothing is left of a text exactly when it holds white space only. -/
theorem strip_eq_nil_iff (s : List Char) : strip s = [] ↔ ∀ c ∈ s, isBlank c = true := by
  have dropped (t : List Char) : t.dropWhile isBlank = [] ↔ ∀ c ∈ t, isBlank c = true := by
    induction t with
    | nil => simp
    | cons c t ih => cases hc : isBlank c <;> simp [hc, ih]
  rw [strip, List.reverse_eq_nil_iff, dropped]
  constructor
  · intro h c hc
    rw [← List.takeWhile_append_dropWhile (p := isBlank) (l := s)] at hc
    rcases List.mem_append.mp hc with hc | hc
    · exact isBlank_of_mem_takeWhile hc
    · exact h c (List.mem_reverse.mpr hc)
  · intro h c hc
    exact h c ((List.dropWhile_suffix _).mem (List.mem_reverse.mp hc))

end TinyLisp.Text
