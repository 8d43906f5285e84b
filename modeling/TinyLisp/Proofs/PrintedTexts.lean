/-
Printed texts.

A readable form has one printed text, which is read as this form alone, and no
other form has that text. What is read from any text is readable, so every text
that is read has the same forms as their printed texts with blanks between them.

* `readFirst_readable`: the first form of a text is readable.
* `behindFirst`: what stands behind the first of some texts joined by blanks.
* `readAll_printed`: printed forms with blanks between them are read back.
* `Value.Readable.eq_of_print_eq`: readable forms with the same text are equal.
* `reading_undoes_printing` (**reading undoes printing**, exactly on the readable
  forms).
-/
import TinyLisp.Proofs.RoundTrip

namespace TinyLisp

open TokenStream Token

/-- The first form of a text is readable. -/
theorem readFirst_readable {source : String} {form : Value} (h : readFirst source = .ok form) :
    form.Readable := by
  have hlexed : (ofList (ofSource source)).Lexed := fun t ht => lexed_of_mem_tokenize ht
  have hopened : ∀ items ∈ ([] : OpenLists), ∀ w ∈ items, w.Readable := nofun
  exact (readOn_readable hlexed hopened).2 form h

/-! ### Texts joined by blanks -/

/-- What stands behind the first of some texts that are joined by blanks. -/
def behindFirst : List String → List Char
  | [] => []
  | text :: texts => ' ' :: (" ".intercalate (text :: texts)).toList

section

variable (text : String) (texts : List String)

lemma toList_intercalate_cons :
    (" ".intercalate (text :: texts)).toList = text.toList ++ behindFirst texts := by
  cases texts with
  | nil => simp [behindFirst]
  | cons next texts =>
      rw [String.intercalate_cons_cons, String.toList_append, String.toList_append,
        List.append_assoc]
      rfl

/-- No atom goes on behind the first text. -/
lemma boundary_behindFirst : Boundary (behindFirst texts) := by
  cases texts with
  | nil => exact boundary_nil
  | cons next texts => exact boundary_cons (by decide) _

lemma tokenize_behindFirst :
    tokenize (behindFirst texts) = ofSource (" ".intercalate texts) := by
  cases texts with
  | nil => simp [behindFirst, ofSource]
  | cons next texts => rw [behindFirst, tokenize_blank, ofSource]

end

/-! ### Printed forms -/

lemma readEvery_printed {forms : List Value} (h : ∀ v ∈ forms, v.Readable) :
    ∃ texts, forms.mapM Value.print = .ok texts ∧
      readEvery [] (ofSource (" ".intercalate texts)) = (forms, none) := by
  induction forms with
  | nil => exact ⟨[], rfl, by simp [ofSource, tokenize_nil]⟩
  | cons v others ih =>
      obtain ⟨text, hprint, hread⟩ := (h v List.mem_cons_self).readEvery_print
      obtain ⟨texts, htexts, hothers⟩ := ih fun w hw => h w (List.mem_cons_of_mem _ hw)
      refine ⟨text :: texts, by rw [List.mapM_cons, hprint, htexts]; rfl, ?_⟩
      rw [ofSource, toList_intercalate_cons, hread _ (boundary_behindFirst texts),
        tokenize_behindFirst, hothers]

/-- **Printed forms with blanks between them** are read back. -/
theorem readAll_printed {forms : List Value} (h : ∀ v ∈ forms, v.Readable) (hne : forms ≠ []) :
    ∃ texts, forms.mapM Value.print = .ok texts ∧ readAll (" ".intercalate texts) = .ok forms := by
  obtain ⟨texts, htexts, hread⟩ := readEvery_printed h
  exact ⟨texts, htexts, readAll_of_tokens rfl hread hne⟩

/-- Readable forms with the same printed text are equal. -/
lemma Value.Readable.eq_of_print_eq {v w : Value} (hv : v.Readable) (hw : w.Readable)
    (h : v.print = w.print) : v = w := by
  obtain ⟨text, hprint, hread⟩ := readAll_print hv
  obtain ⟨text', hprint', hread'⟩ := readAll_print hw
  have htext : text = text' := Except.ok.inj (hprint.symm.trans (h.trans hprint'))
  have hforms := hread.symm.trans (htext ▸ hread')
  exact List.head_eq_of_cons_eq (Except.ok.inj hforms)

/-- **Reading undoes printing on exactly the readable forms.** A form is readable exactly when it
is printed and its text is read as this form alone, and whatever is read from a text is readable.
So the printed forms of a text, with blanks between them, are read as the same forms, and two
readable forms with the same printed text are equal. -/
theorem reading_undoes_printing :
    (∀ v : Value, v.Readable ↔ ∃ text, v.print = .ok text ∧ readAll text = .ok [v]) ∧
    (∀ source form, readFirst source = .ok form → form.Readable) ∧
    (∀ source forms, readAll source = .ok forms →
      (∀ form ∈ forms, form.Readable) ∧
      ∃ texts, forms.mapM Value.print = .ok texts ∧
        readAll (" ".intercalate texts) = .ok forms) ∧
    ∀ v w : Value, v.Readable → w.Readable → v.print = w.print → v = w := by
  refine ⟨fun v => ⟨readAll_print, fun ⟨text, _, hread⟩ => ?_⟩, fun _ _ => readFirst_readable,
    fun source forms hread => ?_, fun _ _ hv hw => hv.eq_of_print_eq hw⟩
  · exact readAll_readable hread v List.mem_cons_self
  · have hforms := readAll_readable hread
    exact ⟨hforms, readAll_printed hforms (readAll_eq_ok_iff.mp hread).2⟩

end TinyLisp
