/-
Division truncates toward zero.

The quotient of two integers is the one whose remainder is smaller than the
divisor and has no other sign than the dividend. It is computed from the floor,
whose remainder has the sign of the divisor: where the floor is negative and the
division is not exact, dividend and divisor differ in sign, and one more than the
floor turns the sign of the remainder around.

* `Truncates`: the truncated quotient, given by its remainder.
* `Truncates.unique`: there is no other.
* `Truncates.of_mul`, `Truncates.of_floor`, `Truncates.of_floor_add_one`: what the
  quotient is when the floor is exact, not negative, or neither.
* `Primitive.truncates_truncatedQuotient`: the floor is put right.
* `Primitive.div_apply_ok`, `Primitive.div_apply_error_cases`: what a division makes
  of its arguments, and what goes wrong with them.
* `division_truncates_toward_zero` (**truncated division**).
-/
import Mathlib.Tactic
import TinyLisp.Primitive.Apply

namespace TinyLisp

/-! ### Quotients by their remainders -/

/-- The quotient `q` of `a` and `b` is truncated toward zero. -/
structure Truncates (a b q : ℤ) : Prop where
  /-- The remainder is smaller than the divisor. -/
  remainder_lt : |a - q * b| < |b|
  /-- The remainder is zero or has the sign of the dividend. -/
  remainder_sign : a - q * b = 0 ∨ (a - q * b).sign = a.sign

namespace Truncates

variable {a b q q' : ℤ}

lemma remainder_nonneg (h : Truncates a b q) (ha : 0 ≤ a) : 0 ≤ a - q * b := by
  rcases h.remainder_sign with hzero | hsign
  · exact hzero.ge
  · rwa [← Int.sign_nonneg_iff, hsign, Int.sign_nonneg_iff]

/-- The other signs of dividend and divisor leave the quotient as it is. -/
lemma neg_neg (h : Truncates a b q) : Truncates (-a) (-b) q := by
  have hneg : -a - q * -b = -(a - q * b) := by ring
  refine ⟨?_, ?_⟩
  · rw [hneg, abs_neg, abs_neg]
    exact h.remainder_lt
  · rw [hneg, neg_eq_zero, Int.sign_neg, Int.sign_neg, neg_inj]
    exact h.remainder_sign

/-- Two remainders of one sign differ by less than the divisor, and by a multiple of it. -/
lemma unique (h : Truncates a b q) (h' : Truncates a b q') : q = q' := by
  wlog ha : 0 ≤ a generalizing a b
  · exact this h.neg_neg h'.neg_neg (by omega)
  have hclose : |(a - q * b) - (a - q' * b)| < |b| :=
    abs_sub_lt_of_nonneg_of_lt (h.remainder_nonneg ha) ((le_abs_self _).trans_lt h.remainder_lt)
      (h'.remainder_nonneg ha) ((le_abs_self _).trans_lt h'.remainder_lt)
  have hmultiple : b ∣ (a - q * b) - (a - q' * b) := ⟨q' - q, by ring⟩
  have hzero := Int.eq_zero_of_abs_lt_dvd ((abs_dvd _ _).mpr hmultiple) hclose
  have hb : b ≠ 0 := abs_pos.mp ((abs_nonneg _).trans_lt hclose)
  refine mul_right_cancel₀ hb ?_
  omega

/-- An exact quotient has no remainder. -/
lemma of_mul (hb : b ≠ 0) : Truncates (q * b) b q := by
  refine ⟨?_, .inl (sub_self _)⟩
  rw [sub_self, abs_zero]
  exact abs_pos.mpr hb

/-- By a positive divisor, a floor that is not negative is the quotient. -/
lemma of_floor {r : ℤ} (hq : 0 ≤ q) (hr : 0 ≤ r) (hrb : r < b) : Truncates (q * b + r) b q := by
  have hremainder : q * b + r - q * b = r := by ring
  refine ⟨?_, ?_⟩
  · rw [hremainder, abs_of_nonneg hr, abs_of_pos (hr.trans_lt hrb)]
    exact hrb
  · rw [hremainder]
    rcases hr.eq_or_lt with hzero | hpos
    · exact .inl hzero.symm
    · have hdividend : 0 < q * b + r := add_pos_of_nonneg_of_pos (mul_nonneg hq (by omega)) hpos
      exact .inr ((Int.sign_eq_one_of_pos hpos).trans (Int.sign_eq_one_of_pos hdividend).symm)

/-- By a positive divisor, the quotient is one more than a negative floor with a remainder. -/
lemma of_floor_add_one {r : ℤ} (hq : q < 0) (hr : 0 < r) (hrb : r < b) :
    Truncates (q * b + r) b (q + 1) := by
  have hremainder : q * b + r - (q + 1) * b = r - b := by ring
  have hneg : r - b < 0 := by omega
  have hdividend : q * b + r < 0 := by
    calc q * b + r < q * b + b := by omega
      _ = (q + 1) * b := by ring
      _ ≤ 0 := mul_nonpos_of_nonpos_of_nonneg (by omega) (by omega)
  refine ⟨?_, .inr ?_⟩
  · rw [hremainder, abs_of_neg hneg, abs_of_pos (hr.trans hrb)]
    omega
  · rw [hremainder, Int.sign_eq_neg_one_of_neg hneg, Int.sign_eq_neg_one_of_neg hdividend]

/-- The truncated division of the integers gives such a quotient. -/
lemma tdiv (hb : b ≠ 0) : Truncates a b (a.tdiv b) := by
  have hremainder : a - a.tdiv b * b = a.tmod b := by rw [Int.tmod_def, mul_comm]
  refine ⟨?_, ?_⟩
  · rw [hremainder, Int.abs_eq_natAbs, Int.abs_eq_natAbs, Int.natAbs_tmod]
    exact_mod_cast Nat.mod_lt _ (Int.natAbs_pos.mpr hb)
  · rw [hremainder, ← Int.sign_eq_zero_iff_zero, Int.sign_tmod]
    split
    · exact .inl rfl
    · exact .inr rfl

end Truncates

namespace Primitive

/-! ### The corrected floor -/

section

variable {a b : ℤ}

lemma truncatedQuotient_neg_neg (a b : ℤ) :
    truncatedQuotient (-a) (-b) = truncatedQuotient a b := by
  simp only [truncatedQuotient, Int.neg_fdiv_neg, mul_neg, ne_eq, neg_inj]

/-- **The floor is put right**: the corrected floor of a quotient truncates it. -/
theorem truncates_truncatedQuotient (hb : b ≠ 0) : Truncates a b (truncatedQuotient a b) := by
  -- the other signs of both integers change neither the floor nor its correction
  wlog hpos : 0 < b generalizing a b
  · have h := (this (a := -a) (neg_ne_zero.mpr hb) (by omega)).neg_neg
    rwa [truncatedQuotient_neg_neg, neg_neg, neg_neg] at h
  obtain ⟨q, r, hq, ha, hr, hrb⟩ : ∃ q r, a.fdiv b = q ∧ a = q * b + r ∧ 0 ≤ r ∧ r < b :=
    ⟨_, _, rfl, by rw [mul_comm, Int.mul_fdiv_add_fmod], Int.fmod_nonneg_of_pos a hpos,
      Int.fmod_lt_of_pos a hpos⟩
  rw [truncatedQuotient, hq]
  by_cases hexact : q * b = a
  · rw [if_neg fun h => h.2 hexact, ← hexact]
    exact .of_mul hb
  · rcases lt_or_ge q 0 with hneg | hnonneg
    · rw [if_pos ⟨hneg, hexact⟩, ha]
      exact .of_floor_add_one hneg (by omega) hrb
    · rw [if_neg fun h => h.1.not_ge hnonneg, ha]
      exact .of_floor hnonneg hr hrb

lemma truncatedQuotient_eq_tdiv (hb : b ≠ 0) : truncatedQuotient a b = a.tdiv b :=
  (truncates_truncatedQuotient hb).unique (.tdiv hb)

end

end Primitive

/-! ### The cases of a division -/

lemma Value.isInt_iff {v : Value} : v.isInt ↔ ∃ n, v = .int n := by
  cases v <;> simp [Value.isInt]

namespace Primitive

variable {args : List Value} {f : Fault}

lemma div_apply_integers (a b : ℤ) :
    div.apply [.int a, .int b] = (quotient a b).map .int :=
  rfl

lemma div_apply_ok (a : ℤ) {b : ℤ} (hb : b ≠ 0) :
    div.apply [.int a, .int b] = .ok (.int (a.tdiv b)) := by
  rw [div_apply_integers, quotient, if_neg hb, truncatedQuotient_eq_tdiv hb]
  rfl

lemma div_apply_zero (a : ℤ) : div.apply [.int a, .int 0] = .error .divisionByZero := by
  rw [div_apply_integers, quotient, if_pos rfl]
  rfl

lemma div_apply_of_length_ne (h : args.length ≠ 2) :
    div.apply args = .error (.primitiveArity .div 2 args.length) := by
  rw [apply, twoIntegers_of_length_ne h]
  rfl

lemma div_apply_of_not_isInt {u v : Value} (h : ¬ (u.isInt ∧ v.isInt)) :
    div.apply [u, v] = .error (.primitiveType .div) := by
  rw [apply, twoIntegers_of_not_integers]
  · rfl
  · rintro ⟨a, b, rfl, rfl⟩
    exact h ⟨rfl, rfl⟩

/-- Each kind of fault of a division has its own arguments. -/
lemma div_apply_error_cases (h : div.apply args = .error f) :
    (args.length ≠ 2 ∧ f.kind = .argumentArity) ∨
      ((∃ u v, args = [u, v] ∧ ¬ (u.isInt ∧ v.isInt)) ∧ f.kind = .argumentType) ∨
      (∃ a, args = [.int a, .int 0]) ∧ f.kind = .divisionByZero := by
  by_cases hlength : args.length = 2
  · obtain ⟨u, v, rfl⟩ := List.length_eq_two.mp hlength
    by_cases hints : u.isInt ∧ v.isInt
    · obtain ⟨a, rfl⟩ := Value.isInt_iff.mp hints.1
      obtain ⟨b, rfl⟩ := Value.isInt_iff.mp hints.2
      by_cases hb : b = 0
      · subst hb
        obtain rfl := Except.error.inj ((div_apply_zero a).symm.trans h)
        exact .inr (.inr ⟨⟨a, rfl⟩, rfl⟩)
      · nomatch (div_apply_ok a hb).symm.trans h
    · obtain rfl := Except.error.inj ((div_apply_of_not_isInt hints).symm.trans h)
      exact .inr (.inl ⟨⟨u, v, rfl, hints⟩, rfl⟩)
  · obtain rfl := Except.error.inj ((div_apply_of_length_ne hlength).symm.trans h)
    exact .inl ⟨hlength, rfl⟩

end Primitive

/-- **Division truncates toward zero.** For a divisor other than zero, division gives the only
quotient whose remainder is smaller than the divisor and is zero or has the sign of the dividend.
So another sign of the dividend or of the divisor is another sign of the quotient, the quotient is
in size the floor of the quotient of the sizes, and division undoes multiplication. Any number of
arguments but two is refused as such, then any value that is no integer, and then a zero divisor;
nothing else goes wrong. -/
theorem division_truncates_toward_zero :
    (∀ a b : ℤ, b ≠ 0 → ∃ q, Primitive.div.apply [.int a, .int b] = .ok (.int q) ∧
      (∀ x, Truncates a b x ↔ x = q) ∧
      Primitive.div.apply [.int (-a), .int b] = .ok (.int (-q)) ∧
      Primitive.div.apply [.int a, .int (-b)] = .ok (.int (-q)) ∧
      q.natAbs = a.natAbs / b.natAbs ∧
      Primitive.div.apply [.int (a * b), .int b] = .ok (.int a)) ∧
    (∀ args : List Value, args.length ≠ 2 →
      Primitive.div.apply args = .error (.primitiveArity .div 2 args.length)) ∧
    (∀ u v : Value, ¬ (u.isInt ∧ v.isInt) →
      Primitive.div.apply [u, v] = .error (.primitiveType .div)) ∧
    (∀ a : ℤ, Primitive.div.apply [.int a, .int 0] = .error .divisionByZero) ∧
    ∀ args f, Primitive.div.apply args = .error f →
      (args.length ≠ 2 ∧ f.kind = .argumentArity) ∨
        ((∃ u v, args = [u, v] ∧ ¬ (u.isInt ∧ v.isInt)) ∧ f.kind = .argumentType) ∨
        (∃ a, args = [.int a, .int 0]) ∧ f.kind = .divisionByZero := by
  refine ⟨fun a b hb => ?_, fun args => Primitive.div_apply_of_length_ne,
    fun u v => Primitive.div_apply_of_not_isInt, Primitive.div_apply_zero,
    fun args f => Primitive.div_apply_error_cases⟩
  refine ⟨a.tdiv b, Primitive.div_apply_ok a hb, fun x => ⟨fun h => h.unique (.tdiv hb), ?_⟩,
    ?_, ?_, Int.natAbs_tdiv a b, ?_⟩
  · rintro rfl
    exact .tdiv hb
  · rw [Primitive.div_apply_ok _ hb, Int.neg_tdiv]
  · rw [Primitive.div_apply_ok _ (neg_ne_zero.mpr hb), Int.tdiv_neg]
  · rw [Primitive.div_apply_ok _ hb, Int.mul_tdiv_cancel a hb]

/-- Minus seven by two is minus three, one by minus two is zero, and a zero divisor is the last
thing that is looked at. -/
theorem minus_seven_halves :
    Primitive.div.apply [.int (-7), .int 2] = .ok (.int (-3)) ∧
    Primitive.div.apply [.int 1, .int (-2)] = .ok (.int 0) ∧
    Primitive.div.apply [.bool true, .int 0, .nil] = .error (.primitiveArity .div 2 3) ∧
    (∃ f, Primitive.div.apply [.bool true, .int 0] = .error f ∧ f.kind = .argumentType) ∧
    Primitive.div.apply [.int 7, .int 0] = .error .divisionByZero := by
  obtain ⟨hintegers, hlength, htypes, hzero, hcases⟩ := division_truncates_toward_zero
  obtain ⟨q, hq, hunique, -⟩ := hintegers (-7) 2 (by decide)
  obtain rfl := (hunique (-3)).mp ⟨by decide, .inr (by decide)⟩
  obtain ⟨q, -, hunique, -, hneg, -⟩ := hintegers 1 2 (by decide)
  obtain rfl := (hunique 0).mp ⟨by decide, .inr (by decide)⟩
  have hbool := htypes (.bool true) (.int 0) (by decide)
  refine ⟨hq, hneg, hlength _ (by decide), ⟨_, hbool, ?_⟩, hzero 7⟩
  rcases hcases _ _ hbool with ⟨hne, -⟩ | ⟨-, hkind⟩ | ⟨⟨a, ha⟩, -⟩
  · exact absurd rfl hne
  · exact hkind
  · exact absurd ha (by simp)

end TinyLisp
