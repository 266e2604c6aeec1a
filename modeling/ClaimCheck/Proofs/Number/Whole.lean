import ClaimCheck.Proofs.Number.Rounding

namespace ClaimCheck.Binary64

/-- A finite number that is exactly the given integer. -/
def IsWhole (x : Binary64) (n : ℤ) : Prop :=
  x.value? = some (n : ℚ)

theorem divHalfEven_mul_self (z : ℕ) {den : ℕ} (hden : 0 < den) :
    divHalfEven (z * den) den = z := by
  rw [divHalfEven, Nat.mul_div_cancel z hden, Nat.mul_mod_left]
  exact if_pos hden

/-- What is a whole number of units already is not changed by rounding to units. -/
theorem scaledHalfEven_of_eq {num den z : ℕ} {k : ℤ} (hden : 0 < den)
    (h : (num / den : ℚ) = z * 2 ^ k) : scaledHalfEven num den k = z := by
  have hden' : (den : ℚ) ≠ 0 := by exact_mod_cast hden.ne'
  rw [div_eq_iff hden'] at h
  unfold scaledHalfEven
  split
  next hk =>
    have hnum : num = z * (den * powerOf 2 k) := by
      rw [← cast_powerOf_two hk, mul_assoc, mul_comm (powerOf 2 k : ℚ)] at h
      exact_mod_cast h
    rw [hnum]
    exact divHalfEven_mul_self z (Nat.mul_pos hden (powerOf_two_pos k))
  next hk =>
    have hone := two_zpow_mul_powerOf_neg (k := k) (by omega)
    have hnum : num * powerOf 2 (-k) = z * den := by
      have hscaled : (num : ℚ) * powerOf 2 (-k) = z * den := by
        calc (num : ℚ) * powerOf 2 (-k) = z * den * (2 ^ k * powerOf 2 (-k)) := by rw [h]; ring
          _ = z * den := by rw [hone, mul_one]
      exact_mod_cast hscaled
    rw [hnum]
    exact divHalfEven_mul_self z hden

theorem signed_zero (s : Bool) : signed s 0 = 0 := by
  cases s <;> rfl

theorem cast_signed_mul {s : Bool} {m n : ℕ} {q : ℚ} (h : (m : ℚ) * q = n) :
    (signed s m : ℚ) * q = signed s n := by
  cases s with
  | false => exact h
  | true =>
      have hm : (signed true m : ℚ) = -(m : ℚ) := by simp [signed]
      have hn : (signed true n : ℚ) = -(n : ℚ) := by simp [signed]
      rw [hm, hn, neg_mul, h]

/-- The logarithm of a whole number up to `2 ^ 53` is small enough for a full mantissa to count
in units of at most one, except at the upper end itself, where it counts in twos. -/
theorem exists_mantissa {num den n : ℕ} (hnum : 0 < num) (hden : 0 < den)
    (h : (num / den : ℚ) = n) (hn : n ≤ 2 ^ 53) :
    ∃ z : ℕ, (n : ℚ) = z * 2 ^ unitExponent num den ∧ unitExponent num den ≤ 1 := by
  obtain ⟨hlower, hupper⟩ := floorLog2_spec hnum hden
  rw [h] at hlower hupper
  have hpos : 0 < n := by
    have hquotient : (0 : ℚ) < n := h ▸ by positivity
    exact_mod_cast hquotient
  have hone : (2 : ℚ) ^ (0 : ℤ) ≤ n := by rw [zpow_zero]; exact_mod_cast hpos
  have hmax : (n : ℚ) ≤ 2 ^ (53 : ℤ) := by exact_mod_cast hn
  have hlog : floorLog2 num den ≤ 53 :=
    (zpow_le_zpow_iff_right₀ one_lt_two).mp (hlower.trans hmax)
  have hnonneg : 0 < floorLog2 num den + 1 :=
    (zpow_lt_zpow_iff_right₀ one_lt_two).mp (hone.trans_lt hupper)
  have hexponent : unitExponent num den = floorLog2 num den - 52 :=
    max_eq_left (by unfold minExponent; omega)
  rw [hexponent]
  -- `2 ^ 53` has one bit more than a mantissa, but it is even
  by_cases hfull : floorLog2 num den = 53
  · rw [hfull] at hlower ⊢
    refine ⟨2 ^ 52, ?_, by norm_num⟩
    rw [le_antisymm hmax hlower]
    norm_num
  · refine ⟨n * powerOf 2 (-(floorLog2 num den - 52)), ?_, by omega⟩
    have hunit := two_zpow_mul_powerOf_neg (k := floorLog2 num den - 52) (by omega)
    rw [Nat.cast_mul, mul_assoc, mul_comm (powerOf 2 _ : ℚ), hunit, mul_one]

theorem ofRatio_isWhole (s : Bool) {num den n : ℕ} (hden : 0 < den) (h : (num / den : ℚ) = n)
    (hn : n ≤ 2 ^ 53) : IsWhole (ofRatio s num den) (signed s n) := by
  by_cases hnum : num = 0
  · have hn : n = 0 := by
      rw [hnum, Nat.cast_zero, zero_div] at h
      exact_mod_cast h.symm
    rw [ofRatio, if_pos hnum, IsWhole, value?_finite, hn, signed_zero, Int.cast_zero, zero_mul]
  · obtain ⟨z, hz, hunit⟩ := exists_mantissa (Nat.pos_of_ne_zero hnum) hden h hn
    obtain ⟨m, e, hratio, hvalue, hcarry⟩ := ofRatio_eq s den hnum
    rw [scaledHalfEven_of_eq hden (h.trans hz), ← hz] at hvalue
    rw [hratio, if_neg (by unfold maxExponent; omega), IsWhole, value?_finite,
      cast_signed_mul hvalue]

theorem ofScaled_isWhole (zeroSign : Bool) {n exponent z : ℤ} (h : (n : ℚ) * 2 ^ exponent = z)
    (hz : z.natAbs ≤ 2 ^ 53) : IsWhole (ofScaled zeroSign n exponent) z := by
  have hpos : (0 : ℚ) < 2 ^ exponent := by positivity
  have habs : (n.natAbs : ℚ) * 2 ^ exponent = z.natAbs := by
    have habs := congrArg abs h
    rwa [abs_mul, abs_of_pos hpos, ← Int.cast_abs, ← Int.cast_abs, Int.abs_eq_natAbs,
      Int.abs_eq_natAbs, Int.cast_natCast, Int.cast_natCast] at habs
  have hsign : signed (if n = 0 then zeroSign else decide (n < 0)) z.natAbs = z := by
    split
    next hzero =>
      have hz0 : z = 0 := by
        rw [hzero, Int.cast_zero, zero_mul] at h
        exact_mod_cast h.symm
      rw [hz0]
      exact signed_zero zeroSign
    next hne =>
      rcases lt_or_gt_of_ne hne with hneg | hpos'
      · have hzneg : z < 0 := by
          have hlt : (z : ℚ) < 0 := h ▸ mul_neg_of_neg_of_pos (by exact_mod_cast hneg) hpos
          exact_mod_cast hlt
        simp only [hneg, signed, decide_true, if_true]
        omega
      · have hzpos : 0 < z := by
          have hlt : (0 : ℚ) < z := h ▸ mul_pos (by exact_mod_cast hpos') hpos
          exact_mod_cast hlt
        simp only [not_lt.mpr hpos'.le, signed, decide_false, Bool.false_eq_true, if_false]
        omega
  obtain ⟨num, den, hden, hvalue, hscaled⟩ := ofScaled_eq_ofRatio zeroSign n exponent
  rw [hscaled]
  generalize (if n = 0 then zeroSign else decide (n < 0)) = negative at hsign ⊢
  rw [← hsign]
  exact ofRatio_isWhole negative hden (hvalue.trans habs) hz

theorem ofInt_isWhole {n : ℤ} (hn : n.natAbs ≤ 2 ^ 53) : IsWhole (ofInt n) n :=
  ofScaled_isWhole false (by rw [zpow_zero, mul_one]) hn

/-- A whole number is finite, its size is the one of the integer, and so is its sign. -/
theorem IsWhole.eq_finite {x : Binary64} {n : ℤ} (h : x.IsWhole n) :
    ∃ s m e, x = .finite s m e ∧ (m : ℚ) * 2 ^ e = n.natAbs ∧ signed s n.natAbs = n := by
  cases x with
  | finite s m e =>
      rw [IsWhole, value?_finite, Option.some.injEq] at h
      have hpos : (0 : ℚ) < 2 ^ e := by positivity
      refine ⟨s, m, e, rfl, ?_, ?_⟩
      · have habs := congrArg abs h
        rwa [abs_mul, abs_signed, abs_of_pos hpos, ← Int.cast_abs, Int.abs_eq_natAbs,
          Int.cast_natCast] at habs
      · have hm : (0 : ℚ) ≤ m * 2 ^ e := by positivity
        cases s with
        | false =>
            have hn : 0 ≤ n := by
              have hle : (0 : ℚ) ≤ n := h ▸ hm
              exact_mod_cast hle
            exact Int.natAbs_of_nonneg hn
        | true =>
            have hn : n ≤ 0 := by
              have hle : (n : ℚ) ≤ 0 := by
                rw [← h, signed, if_pos rfl, Int.cast_neg, Int.cast_natCast, neg_mul]
                exact neg_nonpos.mpr hm
              exact_mod_cast hle
            rw [signed, if_pos rfl, Int.ofNat_natAbs_of_nonpos hn, neg_neg]
  | infinite s => cases h
  | nan => cases h

theorem IsWhole.add {x y : Binary64} {a b : ℤ} (hx : x.IsWhole a) (hy : y.IsWhole b)
    (h : (a + b).natAbs ≤ 2 ^ 53) : IsWhole (x + y) (a + b) := by
  obtain ⟨s, m, e, rfl, _, _⟩ := hx.eq_finite
  obtain ⟨t, n, f, rfl, _, _⟩ := hy.eq_finite
  rw [IsWhole, value?_finite, Option.some.injEq] at hx hy
  refine ofScaled_isWhole _ ?_ h
  generalize hlow : min e f = low
  have hsum : ((a + b : ℤ) : ℚ) = signed s m * 2 ^ e + signed t n * 2 ^ f := by
    rw [Int.cast_add, hx, hy]
  rw [hsum, ← powerOf_two_sub_mul (show low ≤ e by omega),
    ← powerOf_two_sub_mul (show low ≤ f by omega)]
  push_cast
  ring

theorem IsWhole.mul {x y : Binary64} {a b : ℤ} (hx : x.IsWhole a) (hy : y.IsWhole b)
    (h : (a * b).natAbs ≤ 2 ^ 53) : IsWhole (x * y) (a * b) := by
  obtain ⟨s, m, e, rfl, _, _⟩ := hx.eq_finite
  obtain ⟨t, n, f, rfl, _, _⟩ := hy.eq_finite
  rw [IsWhole, value?_finite, Option.some.injEq] at hx hy
  refine ofScaled_isWhole _ ?_ h
  have hproduct : ((a * b : ℤ) : ℚ) = signed s m * 2 ^ e * (signed t n * 2 ^ f) := by
    rw [Int.cast_mul, hx, hy]
  rw [hproduct, Int.cast_mul, zpow_add₀ two_ne_zero]
  ring

/-- Below the point a mantissa of a whole number has nothing. -/
theorem mantissa_eq {m n : ℕ} {e : ℤ} (he : e ≤ 0) (h : (m : ℚ) * 2 ^ e = n) :
    m = n * powerOf 2 (-e) := by
  have hunit := two_zpow_mul_powerOf_neg he
  have hscaled : (m : ℚ) = n * powerOf 2 (-e) := by rw [← h, mul_assoc, hunit, mul_one]
  exact_mod_cast hscaled

theorem IsWhole.trunc? {x : Binary64} {n : ℤ} (h : x.IsWhole n) : x.trunc? = some n := by
  obtain ⟨s, m, e, rfl, hsize, hsign⟩ := h.eq_finite
  rw [Binary64.trunc?, Option.some.injEq]
  split
  next he =>
    have hm : m * powerOf 2 e = n.natAbs := by
      rw [← cast_powerOf_two he] at hsize
      exact_mod_cast hsize
    rw [hm, hsign]
  next he => rw [mantissa_eq (by omega) hsize, Nat.mul_div_cancel _ (powerOf_two_pos _), hsign]

theorem IsWhole.roundHalfEven? {x : Binary64} {n : ℤ} (h : x.IsWhole n) :
    x.roundHalfEven? = some n := by
  obtain ⟨s, m, e, rfl, hsize, hsign⟩ := h.eq_finite
  have hm : (m / (1 : ℕ) : ℚ) = n.natAbs * 2 ^ (-e) := by
    rw [← hsize, mul_assoc, ← zpow_add₀ two_ne_zero, add_neg_cancel, zpow_zero, mul_one,
      Nat.cast_one, div_one]
  rw [Binary64.roundHalfEven?, scaledHalfEven_of_eq one_pos hm, hsign]

theorem IsWhole.fraction {x : Binary64} {n : ℤ} (h : x.IsWhole n) : x.fraction.IsWhole 0 := by
  obtain ⟨s, m, e, rfl, hsize, _⟩ := h.eq_finite
  rw [Binary64.fraction]
  split
  next => rw [IsWhole, value?_finite, signed_zero, Int.cast_zero, zero_mul]
  next he =>
    rw [mantissa_eq (by omega) hsize, Nat.mul_mod_left, signed_zero]
    exact ofScaled_isWhole s (by rw [Int.cast_zero, zero_mul]) (by decide)

end ClaimCheck.Binary64
