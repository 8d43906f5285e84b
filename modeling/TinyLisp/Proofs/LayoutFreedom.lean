/-
Freedom of layout.

Tokens may be written with any layout between them, or with none where they are
told apart without it: only two atoms side by side need some. However they are
written, the text is cut into these tokens, so it has the same forms or the same
fault.

* `Token.IsRendering`: tokens complete in themselves with layout around them, in
  which no two atoms touch.
* `Token.IsLayout.boundary`: no atom goes on into layout.
* `Token.IsRendering.fits`: in such a rendering each token takes what it should.
* `layout_does_not_matter` (**only the tokens matter**).
-/
import TinyLisp.Proofs.Renderings

namespace TinyLisp

namespace Token

/-- Tokens complete in themselves with layout around them: any layout, or none, but for some
between two atoms side by side. -/
structure IsRendering (placed : List (List Char × Token)) (last : List Char) : Prop where
  layout : ∀ p ∈ placed, IsLayout p.1
  whole : ∀ p ∈ placed, p.2.IsWhole
  last : IsLayout last
  apart : placed.IsChain fun p q => p.2.kind = .atom → q.2.kind = .atom → q.1 ≠ []

/-! ### Where an atom ends -/

/-- No atom goes on into layout, nor over an empty one into what cannot continue it. -/
lemma IsLayout.boundary {layout rest : List Char} (h : IsLayout layout)
    (hrest : layout = [] → Boundary rest) : Boundary (layout ++ rest) := by
  cases h with
  | nil => exact hrest rfl
  | separator hc _ => exact boundary_cons (by simp [isAtomChar, hc]) _
  | comment _ _ => exact boundary_cons rfl _

/-- Another token than an atom continues no atom. -/
lemma IsWhole.boundary {t : Token} (h : t.IsWhole) (hkind : t.kind ≠ .atom) (rest : List Char) :
    Boundary (t.text.toList ++ rest) := by
  cases h with
  | openParen => exact boundary_cons rfl rest
  | closeParen => exact boundary_cons rfl rest
  | string _ =>
      rw [String.toList_ofList, List.cons_append]
      exact boundary_cons rfl _
  | atom _ => exact absurd rfl hkind

/-! ### Renderings that keep atoms apart -/

section

variable {placed : List (List Char × Token)} {last : List Char}

lemma IsRendering.tail {p : List Char × Token} (h : IsRendering (p :: placed) last) :
    IsRendering placed last where
  layout := (List.forall_mem_cons.mp h.layout).2
  whole := (List.forall_mem_cons.mp h.whole).2
  last := h.last
  apart := h.apart.tail

/-- The text behind an atom does not go on with it. -/
lemma IsRendering.boundary {layout : List Char} {t : Token}
    (h : IsRendering ((layout, t) :: placed) last) (hkind : t.kind = .atom) :
    Boundary (render placed last) := by
  cases placed with
  | nil =>
      have hlast := h.last.boundary fun _ => boundary_nil
      rwa [List.append_nil] at hlast
  | cons second placed =>
      obtain ⟨layout', t'⟩ := second
      have hlayout' := h.layout (layout', t') (by simp)
      have hwhole' := h.whole (layout', t') (by simp)
      refine hlayout'.boundary fun hempty => hwhole'.boundary (fun hkind' => ?_) _
      exact (List.isChain_cons_cons.mp h.apart).1 hkind hkind' hempty

/-- **Each token of such a rendering** takes what it should. -/
theorem IsRendering.fits (h : IsRendering placed last) : Fits placed last := by
  induction placed with
  | nil => exact .layout h.last
  | cons first placed ih =>
      obtain ⟨layout, t⟩ := first
      have hlayout := h.layout (layout, t) List.mem_cons_self
      have hwhole := h.whole (layout, t) List.mem_cons_self
      exact ⟨hlayout, .whole hwhole h.boundary, ih h.tail⟩

/-- The tokens of such a rendering. -/
lemma IsRendering.ofSource_eq (h : IsRendering placed last) :
    ofSource (String.ofList (render placed last)) = placed.map Prod.snd := by
  rw [ofSource, String.toList_ofList, tokenize_render h.fits]

end

end Token

open Token

/-- All forms of a text depend on its tokens alone. -/
lemma readAll_congr {source source' : String} (h : ofSource source = ofSource source') :
    readAll source = readAll source' := by
  rw [readAll, readAll, h]

/-- **Only the tokens matter.** Tokens written with layout around them, so that no two atoms touch,
are cut apart as these tokens. So any other such layout of the same tokens gives the same forms or
the same fault. -/
theorem layout_does_not_matter {placed : List (List Char × Token)} {last : List Char}
    (h : IsRendering placed last) :
    ofSource (String.ofList (render placed last)) = placed.map Prod.snd ∧
      ∀ placed' last', IsRendering placed' last' → placed'.map Prod.snd = placed.map Prod.snd →
        readAll (String.ofList (render placed' last')) =
          readAll (String.ofList (render placed last)) := by
  refine ⟨h.ofSource_eq, fun placed' last' h' htokens => readAll_congr ?_⟩
  rw [h.ofSource_eq, h'.ofSource_eq, htokens]

/-- Two atoms with nothing between them but a comment, and the same tokens with plain blanks. -/
theorem atoms_apart_by_comment :
    let a : Token := ⟨.atom, String.ofList ['a']⟩
    let quote : Token := ⟨.string, String.ofList ('"' :: (['\\', '"'] ++ ['"']))⟩
    let placed := [([], a), ([';', '(', '"', '\n'], a), ([], quote)]
    let plain := [([' '], a), ([' '], a), ([' ', ','], quote)]
    IsRendering placed [] ∧ IsRendering plain [' '] ∧
      ofSource (String.ofList (render placed [])) = [a, a, quote] ∧
      readAll (String.ofList (render plain [' '])) =
        readAll (String.ofList (render placed [])) := by
  intro a quote placed plain
  have ha : a.IsWhole := .atom (isAtom_of_all (List.cons_ne_nil _ _) rfl)
  have hquote : quote.IsWhole := .string (.pair '"' .nil)
  have hblank : IsLayout [' '] := .separator rfl .nil
  have hplaced : IsRendering placed [] := by
    refine ⟨?_, ?_, .nil, ?_⟩
    · simp only [placed, List.forall_mem_cons]
      exact ⟨.nil, .comment (by decide : '\n' ∉ ['(', '"']) .nil, .nil, nofun⟩
    · simp only [placed, List.forall_mem_cons]
      exact ⟨ha, ha, hquote, nofun⟩
    · simp [placed, a, quote]
  have hplain : IsRendering plain [' '] := by
    refine ⟨?_, ?_, hblank, ?_⟩
    · simp only [plain, List.forall_mem_cons]
      exact ⟨hblank, hblank, .separator rfl (.separator rfl .nil), nofun⟩
    · simp only [plain, List.forall_mem_cons]
      exact ⟨ha, ha, hquote, nofun⟩
    · simp [plain, a, quote]
  obtain ⟨htokens, hforms⟩ := layout_does_not_matter hplaced
  exact ⟨hplaced, hplain, htokens, hforms plain [' '] hplain rfl⟩

end TinyLisp
