/-
The numbers that a setting can spell.

A setting spells an integer by an optional sign and a row of digits, of any
script and with at most one underscore between neighbours, with white space
around them. These spellings are a grammar, and the setting of the limit on
nested calls is read by this grammar and by nothing else: a positive number is
the limit, and every other text leaves the default limit and, if there is any
text, is reported once.

* `DigitRow`, `Numeral`, `Spells`: the rows of digits, the numerals, and the
  texts that spell an integer.
* `groupedDigits?_eq_some_iff`, `signedNumeral?_eq_some_iff`, `spells_iff`: what
  is read from a text is what the text spells.
* `Numeral.natAbs_lt`: a numeral has no more digits than the limit.
* `depthSetting_of_pos`, `depthSetting_of_nonpos`, `depthSetting_of_not_spelled`:
  the three ways to read a setting.
* `depth_setting_is_parsed_exactly` (**the setting of the limit**).
-/
import Mathlib.Data.Nat.Digits.Defs
import TinyLisp.Settings

namespace TinyLisp

/-! ### The grammar -/

/-- A row of digits with at most one underscore between neighbours, and the values of the
digits. -/
inductive DigitRow : List Char → List ℕ → Prop
  | last {c d} (hc : Text.digitValue? c = some d) : DigitRow [c] [d]
  | next {c d s ds} (hc : Text.digitValue? c = some d) (hrest : DigitRow s ds) :
      DigitRow (c :: s) (d :: ds)
  | grouped {c d s ds} (hc : Text.digitValue? c = some d) (hrest : DigitRow s ds) :
      DigitRow (c :: '_' :: s) (d :: ds)

/-- An optional sign and a row of digits within the limit, and the integer that they denote. -/
inductive Numeral : List Char → ℤ → Prop
  | bare {s ds} (hrow : DigitRow s ds) (hlimit : ds.length ≤ Text.digitLimit) :
      Numeral s (Nat.ofDigits 10 ds.reverse : ℕ)
  | plus {s ds} (hrow : DigitRow s ds) (hlimit : ds.length ≤ Text.digitLimit) :
      Numeral ('+' :: s) (Nat.ofDigits 10 ds.reverse : ℕ)
  | minus {s ds} (hrow : DigitRow s ds) (hlimit : ds.length ≤ Text.digitLimit) :
      Numeral ('-' :: s) (-(Nat.ofDigits 10 ds.reverse : ℕ))

/-- A text spells an integer by a numeral with white space around it. -/
def Spells (raw : String) (n : ℤ) : Prop :=
  ∃ before numeral after, raw.toList = before ++ numeral ++ after ∧
    (∀ c ∈ before, Text.isBlank c = true) ∧ (∀ c ∈ after, Text.isBlank c = true) ∧
    Numeral numeral n

/-! ### Rows of digits -/

section

variable {s : List Char} {ds : List ℕ}

lemma DigitRow.lt (h : DigitRow s ds) : ∀ d ∈ ds, d < 10 := by
  induction h with
  | last hc => exact List.forall_mem_singleton.mpr (Text.digitValue?_lt hc)
  | next hc _ ih | grouped hc _ ih =>
      exact List.forall_mem_cons.mpr ⟨Text.digitValue?_lt hc, ih⟩

/-- A row begins with a digit, so with no sign and no underscore. -/
lemma DigitRow.head (h : DigitRow s ds) :
    ∃ c rest d, s = c :: rest ∧ Text.digitValue? c = some d := by
  cases h with
  | last hc | next hc _ | grouped hc _ => exact ⟨_, _, _, rfl, hc⟩

lemma DigitRow.ne_cons (h : DigitRow s ds) {c : Char} (hc : Text.digitValue? c = none)
    (rest : List Char) : s ≠ c :: rest := by
  obtain ⟨c', rest', d, rfl, hd⟩ := h.head
  intro heq
  rw [(List.cons.inj heq).1, hc] at hd
  nomatch hd

lemma DigitRow.of_groupedDigits? (h : Text.groupedDigits? s = some ds) : DigitRow s ds := by
  fun_induction Text.groupedDigits? s generalizing ds with
  | case1 => nomatch h
  | case2 c =>
      obtain ⟨d, hd, rfl⟩ := Option.map_eq_some_iff.mp h
      exact .last hd
  | case3 c rest ih =>
      obtain ⟨d, hd, h⟩ := Option.bind_eq_some_iff.mp h
      obtain ⟨ds', hds', h⟩ := Option.bind_eq_some_iff.mp h
      rw [← Option.some.inj h]
      exact .grouped hd (ih hds')
  | case4 c rest _ _ ih =>
      obtain ⟨d, hd, h⟩ := Option.bind_eq_some_iff.mp h
      obtain ⟨ds', hds', h⟩ := Option.bind_eq_some_iff.mp h
      rw [← Option.some.inj h]
      exact .next hd (ih hds')

lemma DigitRow.groupedDigits?_eq (h : DigitRow s ds) : Text.groupedDigits? s = some ds := by
  induction h with
  | last hc => rw [Text.groupedDigits?, hc, Option.map_some]
  | next hc hrest ih =>
      obtain ⟨c', rest, d, rfl, -⟩ := hrest.head
      rw [Text.groupedDigits?.eq_4 _ _ (List.cons_ne_nil _ _) (hrest.ne_cons rfl), hc, ih]
      rfl
  | grouped hc _ ih =>
      rw [Text.groupedDigits?, hc, ih]
      rfl

/-- **Rows of digits** are read as their values, and nothing else is. -/
theorem groupedDigits?_eq_some_iff : Text.groupedDigits? s = some ds ↔ DigitRow s ds :=
  ⟨.of_groupedDigits?, DigitRow.groupedDigits?_eq⟩

/-- The number of a row of digit values is the positional one. -/
lemma ofDigitValues_eq (ds : List ℕ) : Text.ofDigitValues ds = Nat.ofDigits 10 ds.reverse := by
  have hfrom (init : ℕ) : ds.foldl (fun n d => 10 * n + d) init =
      10 ^ ds.length * init + Nat.ofDigits 10 ds.reverse := by
    induction ds generalizing init with
    | nil => simp
    | cons d rest ih =>
        rw [List.foldl_cons, ih, Nat.ofDigits_reverse_cons, List.length_cons]
        ring
  rw [Text.ofDigitValues, hfrom 0, Nat.mul_zero, Nat.zero_add]

/-- The number of a row within the limit. -/
lemma unsignedNumeral?_eq_some_iff {n : ℕ} : Text.unsignedNumeral? s = some n ↔
    ∃ ds, DigitRow s ds ∧ ds.length ≤ Text.digitLimit ∧ Nat.ofDigits 10 ds.reverse = n := by
  simp only [Text.unsignedNumeral?, Option.bind_eq_bind, Option.bind_eq_some_iff,
    groupedDigits?_eq_some_iff, ofDigitValues_eq, guard, Option.pure_def, Option.some.injEq]
  refine exists_congr fun ds => and_congr_right fun _ => ?_
  by_cases hlimit : ds.length ≤ Text.digitLimit <;> simp [hlimit]

end

/-! ### Numerals -/

section

variable {s : List Char} {n : ℤ}

/-- **Numerals** are read as the integers that they denote, and nothing else is. -/
theorem signedNumeral?_eq_some_iff : Text.signedNumeral? s = some n ↔ Numeral s n := by
  have hsigned (s : List Char) :
      ((Text.unsignedNumeral? s).bind fun k => some (k : ℤ)).map (fun z => z) = some n ↔
        ∃ k : ℕ, Text.unsignedNumeral? s = some k ∧ (k : ℤ) = n := by
    rw [Option.map_id', Option.bind_eq_some_iff]
    simp only [Option.some.injEq]
  constructor
  · intro h
    unfold Text.signedNumeral? at h
    split at h
    · obtain ⟨k, hk, rfl⟩ := (hsigned _).mp h
      obtain ⟨ds, hrow, hlimit, rfl⟩ := unsignedNumeral?_eq_some_iff.mp hk
      exact .plus hrow hlimit
    · obtain ⟨k, hk, rfl⟩ := Option.map_eq_some_iff.mp h
      obtain ⟨ds, hrow, hlimit, rfl⟩ := unsignedNumeral?_eq_some_iff.mp hk
      exact .minus hrow hlimit
    · obtain ⟨k, hk, rfl⟩ := (hsigned _).mp h
      obtain ⟨ds, hrow, hlimit, rfl⟩ := unsignedNumeral?_eq_some_iff.mp hk
      exact .bare hrow hlimit
  · intro h
    cases h with
    | bare hrow hlimit =>
        rw [Text.signedNumeral?.eq_3 s (hrow.ne_cons rfl) (hrow.ne_cons rfl)]
        exact (hsigned s).mpr ⟨_, unsignedNumeral?_eq_some_iff.mpr ⟨_, hrow, hlimit, rfl⟩, rfl⟩
    | plus hrow hlimit =>
        exact (hsigned _).mpr ⟨_, unsignedNumeral?_eq_some_iff.mpr ⟨_, hrow, hlimit, rfl⟩, rfl⟩
    | minus hrow hlimit =>
        exact Option.map_eq_some_iff.mpr
          ⟨_, unsignedNumeral?_eq_some_iff.mpr ⟨_, hrow, hlimit, rfl⟩, rfl⟩

/-- A numeral denotes less than the power of ten with as many zeros as it may have digits. -/
lemma Numeral.natAbs_lt (h : Numeral s n) :
    ∃ digits ≤ Text.digitLimit, n.natAbs < 10 ^ digits := by
  have hrow {s ds} (hrow : DigitRow s ds) : Nat.ofDigits 10 ds.reverse < 10 ^ ds.length := by
    rw [← List.length_reverse]
    exact Nat.ofDigits_lt_base_pow_length (by decide) fun d hd => hrow.lt d (List.mem_reverse.mp hd)
  cases h with
  | bare hs hlimit | plus hs hlimit => exact ⟨_, hlimit, by simpa using hrow hs⟩
  | minus hs hlimit => exact ⟨_, hlimit, by simpa using hrow hs⟩

/-! ### White space around a numeral -/

lemma isBlank_of_digitValue? {c : Char} {d : ℕ} (h : Text.digitValue? c = some d) :
    Text.isBlank c = false := by
  obtain ⟨z, hz, -⟩ := Option.map_eq_some_iff.mp h
  have hrange := List.find?_some hz
  simp only [Bool.and_eq_true, decide_eq_true_eq] at hrange
  -- no run of ten digits meets a range of white space
  have happart : ∀ z ∈ Text.zeros, ∀ r ∈ Text.blankRanges, z + 9 < r.low ∨ r.high < z := by decide
  refine Bool.eq_false_iff.mpr fun hblank => ?_
  obtain ⟨r, hr, hin⟩ := List.any_eq_true.mp hblank
  simp only [Text.CodeRange.has, Bool.and_eq_true, decide_eq_true_eq] at hin
  have := happart z (List.mem_of_find?_eq_some hz) r hr
  omega

lemma DigitRow.isBlank {ds : List ℕ} (h : DigitRow s ds) : ∀ c ∈ s, Text.isBlank c = false := by
  induction h with
  | last hc => exact List.forall_mem_singleton.mpr (isBlank_of_digitValue? hc)
  | next hc _ ih => exact List.forall_mem_cons.mpr ⟨isBlank_of_digitValue? hc, ih⟩
  | grouped hc _ ih =>
      exact List.forall_mem_cons.mpr
        ⟨isBlank_of_digitValue? hc, List.forall_mem_cons.mpr ⟨by decide, ih⟩⟩

lemma Numeral.isBlank (h : Numeral s n) : ∀ c ∈ s, Text.isBlank c = false := by
  cases h with
  | bare hrow _ => exact hrow.isBlank
  | plus hrow _ | minus hrow _ => exact List.forall_mem_cons.mpr ⟨by decide, hrow.isBlank⟩

/-- White space in front is dropped from a text that begins with none. -/
lemma dropWhile_isBlank_append {before : List Char} (hbefore : ∀ c ∈ before, Text.isBlank c = true)
    (hs : ∀ c ∈ s, Text.isBlank c = false) (hne : s ≠ []) (after : List Char) :
    (before ++ (s ++ after)).dropWhile Text.isBlank = s ++ after := by
  obtain ⟨c, rest, rfl⟩ := List.exists_cons_of_ne_nil hne
  rw [List.dropWhile_append_of_pos hbefore, List.cons_append,
    List.dropWhile_cons_of_neg (by simp [hs c List.mem_cons_self])]

/-- A text without white space is what is left of it with white space around it. -/
lemma strip_append {before after : List Char} (hbefore : ∀ c ∈ before, Text.isBlank c = true)
    (hafter : ∀ c ∈ after, Text.isBlank c = true) (hs : ∀ c ∈ s, Text.isBlank c = false)
    (hne : s ≠ []) : Text.strip (before ++ s ++ after) = s := by
  have hback := dropWhile_isBlank_append (s := s.reverse)
    (fun c hc => hafter c (List.mem_reverse.mp hc)) (fun c hc => hs c (List.mem_reverse.mp hc))
    (mt List.reverse_eq_nil_iff.mp hne) []
  rw [Text.strip, List.append_assoc, dropWhile_isBlank_append hbefore hs hne,
    List.reverse_append, ← List.append_nil s.reverse, hback, List.append_nil, List.reverse_reverse]

/-- A text is what is left of it with white space around it. -/
lemma exists_eq_strip (s : List Char) :
    ∃ before after, s = before ++ Text.strip s ++ after ∧
      (∀ c ∈ before, Text.isBlank c = true) ∧ ∀ c ∈ after, Text.isBlank c = true := by
  refine ⟨s.takeWhile Text.isBlank,
    ((s.dropWhile Text.isBlank).reverse.takeWhile Text.isBlank).reverse, ?_,
    fun c hc => Text.isBlank_of_mem_takeWhile hc,
    fun c hc => Text.isBlank_of_mem_takeWhile (List.mem_reverse.mp hc)⟩
  rw [Text.strip, List.append_assoc, ← List.reverse_append, List.takeWhile_append_dropWhile,
    List.reverse_reverse, List.takeWhile_append_dropWhile]

lemma Numeral.ne_nil (h : Numeral s n) : s ≠ [] := by
  cases h with
  | bare hrow _ =>
      obtain ⟨c, rest, -, rfl, -⟩ := hrow.head
      exact List.cons_ne_nil c rest
  | plus _ _ | minus _ _ => exact List.cons_ne_nil _ _

end

section

variable {raw : String} {n : ℤ}

/-- **What a text spells** is what is read from it without the white space around it. -/
theorem spells_iff : Spells raw n ↔ Text.signedNumeral? (Text.strip raw.toList) = some n := by
  rw [signedNumeral?_eq_some_iff]
  constructor
  · rintro ⟨before, numeral, after, hraw, hbefore, hafter, hnumeral⟩
    rwa [hraw, strip_append hbefore hafter hnumeral.isBlank hnumeral.ne_nil]
  · intro hnumeral
    obtain ⟨before, after, hraw, hbefore, hafter⟩ := exists_eq_strip raw.toList
    exact ⟨before, _, after, hraw, hbefore, hafter, hnumeral⟩

lemma Spells.ne_empty (h : Spells raw n) : raw ≠ "" := by
  rintro rfl
  nomatch spells_iff.mp h

/-! ### Reading the setting -/

lemma depthSetting_of_pos (h : Spells raw n) (hn : 0 < n) :
    depthSetting (some raw) = (n, none) := by
  simp [depthSetting, h.ne_empty, spells_iff.mp h, hn]

lemma depthSetting_of_nonpos (h : Spells raw n) (hn : n ≤ 0) :
    depthSetting (some raw) = (defaultDepth, some (.notPositive raw)) := by
  simp [depthSetting, h.ne_empty, spells_iff.mp h, hn]

lemma depthSetting_of_not_spelled (h : ∀ n, ¬ Spells raw n) (hne : raw ≠ "") :
    depthSetting (some raw) = (defaultDepth, some (.notInteger raw)) := by
  have hnone : Text.signedNumeral? (Text.strip raw.toList) = none :=
    Option.eq_none_iff_forall_ne_some.mpr fun n hn => h n (spells_iff.mpr hn)
  simp [depthSetting, hne, hnone]

/-- A setting that spells no positive number leaves the default limit. -/
lemma depthSetting_fst_of_nonpos (h : ∀ n, Spells raw n → n ≤ 0) :
    (depthSetting (some raw)).1 = defaultDepth := by
  by_cases hempty : raw = ""
  · rw [hempty]
    rfl
  · by_cases hspelled : ∃ n, Spells raw n
    · obtain ⟨n, hn⟩ := hspelled
      rw [depthSetting_of_nonpos hn (h n hn)]
    · rw [depthSetting_of_not_spelled (not_exists.mp hspelled) hempty]

end

/-- **The setting of the limit.** A guard without a limit of its own has the number that its setting
spells for a limit, if this is positive, and looking the limit up logs nothing. A setting that
spells another number, or none, leaves the limit of 500, and looking it up logs one warning, but an
empty setting logs nothing. So the limit is positive whatever the setting, and two spellings of a
positive number give the same limit. -/
theorem depth_setting_is_parsed_exactly (depth : ℕ) (raw : String) :
    let guard : CallGuard := ⟨depth, none, some raw⟩
    (∀ n, Spells raw n → 0 < n → guard.limit = n ∧ guard.log 1 = []) ∧
    (∀ n, Spells raw n → n ≤ 0 →
      guard.limit = 500 ∧ guard.log 1 = [(DepthWarning.notPositive raw).logLine]) ∧
    ((∀ n, ¬ Spells raw n) →
      guard.limit = 500 ∧
        guard.log 1 = if raw = "" then [] else [(DepthWarning.notInteger raw).logLine]) ∧
    1 ≤ guard.limit ∧
    ∀ raw' n, Spells raw n → Spells raw' n → 0 < n →
      (⟨depth, none, some raw'⟩ : CallGuard).limit = guard.limit := by
  intro guard
  have hread {raw : String} {limit : ℤ} {warning : Option DepthWarning}
      (h : depthSetting (some raw) = (limit, warning)) :
      (⟨depth, none, some raw⟩ : CallGuard).limit = limit ∧
        (⟨depth, none, some raw⟩ : CallGuard).log 1 = warning.toList.map (·.logLine) := by
    simp [CallGuard.limit, CallGuard.log, CallGuard.warning, h]
  refine ⟨fun n h hn => hread (depthSetting_of_pos h hn),
    fun n h hn => hread (depthSetting_of_nonpos h hn), fun h => ?_, depthSetting_pos (some raw),
    fun raw' n h h' hn => ?_⟩
  · by_cases hempty : raw = ""
    · subst hempty
      exact hread rfl
    · rw [if_neg hempty]
      exact hread (depthSetting_of_not_spelled h hempty)
  · rw [(hread (depthSetting_of_pos h' hn)).1, (hread (depthSetting_of_pos h hn)).1]

/-- A sign, a zero in front, digits of two scripts and white space around spell a limit of
twelve. -/
theorem mixed_digits_spell_limit :
    let raw := " +0１_२\n"
    let guard : CallGuard := ⟨3, none, some raw⟩
    Spells raw 12 ∧ guard.limit = 12 ∧ guard.log 1 = [] := by
  intro raw guard
  have hspells : Spells raw 12 := spells_iff.mpr (by decide)
  exact ⟨hspells, (depth_setting_is_parsed_exactly 3 raw).1 12 hspells (by decide)⟩

end TinyLisp
