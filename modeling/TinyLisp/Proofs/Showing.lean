/-
Values that can be shown.

A message that shows a value needs its text, and the text of a value can fail in
one way only: an integer over the digit limit has none. So the diagnostic form
of a value exists exactly if all its integers can be written, and so does the
printed form of a computed value. Readable forms can always be shown, and so can a
limit on nested calls that comes from a setting.

* `Value.exists_inspect`, `Value.inspect_eq_longInteger`: the diagnostic form of a
  value, and values without one.
* `Value.Computed.print_cases`: the printed form of a computed value.
* `isSome_decimal?_depthSetting`: limits that come from a setting have no more
  digits than a setting may have.
-/
import TinyLisp.Proofs.DepthSettings
import TinyLisp.Proofs.SessionValues
import TinyLisp.Proofs.Termination

namespace TinyLisp

namespace Value

lemma isShown_int {n : ℤ} : (int n).IsShown ↔ (Text.decimal? n).isSome := by
  refine ⟨fun h => h n rfl, fun h m hm => ?_⟩
  obtain rfl := Value.int.inj hm
  exact h

/-- The leaves of readable forms can be written. -/
lemma IsFormLeaf.isShown {v : Value} (h : v.IsFormLeaf) : v.IsShown := by
  rintro n rfl
  exact h

/-- The integers of a readable form can be written. -/
lemma Readable.allShown {v : Value} (h : v.Readable) : v.AllLeaves IsShown :=
  h.mono fun _ => IsFormLeaf.isShown

/-! ### Diagnostic forms -/

lemma exists_inspectRestOnto {items : List Value}
    (h : ∀ v ∈ items, ∀ done, ∃ text, inspectOnto done v = .ok text) (done : String) :
    ∃ text, inspectRestOnto done items = .ok text := by
  induction items generalizing done with
  | nil => exact ⟨done, rfl⟩
  | cons v rest ih =>
      obtain ⟨first, hfirst⟩ := h v List.mem_cons_self (done ++ ", ")
      obtain ⟨text, htext⟩ := ih (fun w hw => h w (List.mem_cons_of_mem _ hw)) first
      refine ⟨text, ?_⟩
      rw [inspectRestOnto, hfirst]
      exact htext

lemma exists_inspectOnto {v : Value} (h : v.AllLeaves IsShown) (done : String) :
    ∃ text, inspectOnto done v = .ok text := by
  induction h generalizing done with
  | @leaf v hv h =>
      cases v with
      | list items => exact absurd rfl (hv items)
      | int n =>
          rw [inspectOnto, integerChars_eq (h n rfl)]
          exact ⟨_, rfl⟩
      | bool b => cases b <;> exact ⟨_, rfl⟩
      | nil | str _ | sym _ | kw _ | builtin _ | closure _ _ _ | foreign _ => exact ⟨_, rfl⟩
  | @list items _ ih =>
      match items with
      | [] => exact ⟨_, rfl⟩
      | [v] =>
          obtain ⟨text, htext⟩ := ih v List.mem_cons_self (done ++ "(")
          refine ⟨text ++ ",)", ?_⟩
          rw [inspectOnto, htext]
          rfl
      | v :: w :: rest =>
          obtain ⟨first, hfirst⟩ := ih v List.mem_cons_self (done ++ "(")
          obtain ⟨text, htext⟩ :=
            exists_inspectRestOnto (fun u hu => ih u (List.mem_cons_of_mem _ hu)) first
          refine ⟨text ++ ")", ?_⟩
          rw [inspectOnto, hfirst]
          simp only [Bind.bind, Except.bind, htext]
          rfl

/-- **Diagnostic forms** exist for values whose integers can be written. -/
theorem exists_inspect {v : Value} (h : v.AllLeaves IsShown) : ∃ text, v.inspect = .ok text :=
  exists_inspectOnto h ""

lemma integerChars_eq_longInteger {n : ℤ} (h : ¬ (Text.decimal? n).isSome) :
    integerChars n = .error .longInteger := by
  unfold integerChars
  split
  · next digits hdigits => exact absurd (Option.isSome_of_eq_some hdigits) h
  · rfl

/-- The first item without a diagnostic form is the fault of the items. -/
lemma inspectRestOnto_eq_longInteger {items : List Value}
    (ih : ∀ v ∈ items, ¬ v.AllLeaves IsShown → ∀ done, inspectOnto done v = .error .longInteger)
    (h : ∃ v ∈ items, ¬ v.AllLeaves IsShown) (done : String) :
    inspectRestOnto done items = .error .longInteger := by
  induction items generalizing done with
  | nil => simp at h
  | cons v rest ihrest =>
      rw [inspectRestOnto]
      by_cases hv : v.AllLeaves IsShown
      · obtain ⟨first, hfirst⟩ := exists_inspectOnto hv (done ++ ", ")
        rw [hfirst]
        exact ihrest (fun w hw => ih w (List.mem_cons_of_mem _ hw)) (by simpa [hv] using h) first
      · rw [ih v List.mem_cons_self hv]
        rfl

lemma inspectOnto_eq_longInteger {v : Value} (h : ¬ v.AllLeaves IsShown) (done : String) :
    inspectOnto done v = .error .longInteger := by
  induction v using Value.induct generalizing done with
  | int n =>
      have hn : ¬ (Text.decimal? n).isSome := fun hn => h (allLeaves_int.mpr (isShown_int.mpr hn))
      rw [inspectOnto, integerChars_eq_longInteger hn]
      rfl
  | list items ih =>
      simp only [allLeaves_list, not_forall, exists_prop] at h
      rcases items with _ | ⟨v, _ | ⟨w, rest⟩⟩
      · simp at h
      · rw [inspectOnto, ih v List.mem_cons_self (by simpa using h)]
        rfl
      · rw [inspectOnto]
        by_cases hv : v.AllLeaves IsShown
        · obtain ⟨first, hfirst⟩ := exists_inspectOnto hv (done ++ "(")
          have hrest : inspectRestOnto first (w :: rest) = .error .longInteger :=
            inspectRestOnto_eq_longInteger
              (fun u hu hnot => ih u (List.mem_cons_of_mem _ hu) hnot) (by simpa [hv] using h) first
          rw [hfirst]
          simp only [Bind.bind, Except.bind, hrest]
        · rw [ih v List.mem_cons_self hv]
          rfl
  | nil | bool _ | str _ | sym _ | kw _ | builtin _ | closure _ _ _ | foreign _ =>
      exact absurd (.leaf (by simp) (by simp [IsShown])) h

/-- **A value with an integer over the digit limit** has no diagnostic form. -/
theorem inspect_eq_longInteger {v : Value} (h : ¬ v.AllLeaves IsShown) :
    v.inspect = .error .longInteger :=
  inspectOnto_eq_longInteger h ""

/-! ### Printed forms -/

/-- A computed value whose integers can be written has a printed form. -/
lemma Computed.exists_printChars {v : Value} (h : v.Computed) (hshown : v.AllLeaves IsShown) :
    ∃ text, printChars v = .ok text := by
  obtain ⟨text, hprint, -⟩ := (h.readable_readBack hshown).readsBack
  exact ⟨text, h.printChars_readBack.symm.trans hprint⟩

/-- The first item without a text is the fault of the items. -/
lemma printItems_eq_longInteger {items : List Value} (hitems : ∀ v ∈ items, v.Computed)
    (ih : ∀ v ∈ items, ¬ v.AllLeaves IsShown → printChars v = .error .longInteger)
    (h : ∃ v ∈ items, ¬ v.AllLeaves IsShown) : printItems items = .error .longInteger := by
  induction items with
  | nil => exact absurd h (by simp)
  | cons v rest ihrest =>
      by_cases hv : v.AllLeaves IsShown
      · obtain ⟨first, hfirst⟩ := (hitems v List.mem_cons_self).exists_printChars hv
        have hlater : ∃ w ∈ rest, ¬ w.AllLeaves IsShown := by
          obtain ⟨w, hw, hnot⟩ := h
          rcases List.mem_cons.mp hw with rfl | hw
          · exact absurd hv hnot
          · exact ⟨w, hw, hnot⟩
        have hrest := ihrest (fun w hw => hitems w (List.mem_cons_of_mem _ hw))
          (fun w hw => ih w (List.mem_cons_of_mem _ hw)) hlater
        cases rest with
        | nil => exact absurd hlater (by simp)
        | cons w rest =>
            rw [printItems, hfirst]
            simp only [Bind.bind, Except.bind, hrest]
      · have hfirst := ih v List.mem_cons_self hv
        cases rest with
        | nil => exact hfirst
        | cons w rest =>
            rw [printItems, hfirst]
            rfl

lemma Computed.printChars_eq_longInteger {v : Value} (h : v.Computed)
    (hnot : ¬ v.AllLeaves IsShown) : printChars v = .error .longInteger := by
  induction h with
  | @leaf v hv h =>
      cases v with
      | list items => exact absurd rfl (hv items)
      | int n =>
          rw [printChars]
          exact integerChars_eq_longInteger fun hsome => hnot (.leaf hv (isShown_int.mpr hsome))
      | nil | bool _ | str _ | sym _ | kw _ | builtin _ | closure _ _ _ | foreign _ =>
          exact absurd (.leaf hv nofun) hnot
  | @list items hitems ih =>
      rw [allLeaves_list] at hnot
      rw [printChars, printItems_eq_longInteger hitems ih (by simpa using hnot)]
      rfl

/-- **Printed forms of computed values** exist exactly when their integers can be written. -/
theorem Computed.print_cases {v : Value} (h : v.Computed) :
    (v.AllLeaves IsShown → ∃ text, v.print = .ok text) ∧
      (¬ v.AllLeaves IsShown → v.print = .error .longInteger) := by
  refine ⟨fun hshown => ?_, fun hnot => ?_⟩
  · obtain ⟨text, htext⟩ := h.exists_printChars hshown
    exact ⟨String.ofList text, by rw [print_eq, htext]; rfl⟩
  · rw [print_eq, h.printChars_eq_longInteger hnot]
    rfl

end Value

/-! ### Limits that come from a setting -/

lemma isSome_decimal?_of_digits {digits : ℕ} {n : ℤ} (hdigits : digits ≤ Text.digitLimit)
    (h : n.natAbs < 10 ^ digits) : (Text.decimal? n).isSome :=
  isSome_decimalWithin? (h.trans_le (Nat.pow_le_pow_right (by decide) hdigits))

/-- **A limit that comes from a setting** can be shown. -/
theorem isSome_decimal?_depthSetting (setting : Option String) :
    (Text.decimal? (depthSetting setting).1).isSome := by
  have hdefault : (Text.decimal? defaultDepth).isSome :=
    isSome_decimal?_of_digits (by decide : 3 ≤ Text.digitLimit) (by decide)
  cases setting with
  | none => exact hdefault
  | some raw =>
      rw [depthSetting]
      split
      · exact hdefault
      · split
        · exact hdefault
        · next n hn =>
            obtain ⟨digits, hdigits, hlt⟩ := (signedNumeral?_eq_some_iff.mp hn).natAbs_lt
            split
            · exact hdefault
            · exact isSome_decimal?_of_digits hdigits hlt

end TinyLisp
