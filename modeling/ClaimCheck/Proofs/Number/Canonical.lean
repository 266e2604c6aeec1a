import ClaimCheck.Proofs.Number.Reach
/-!
The one form of every finite number. A mantissa is full unless its exponent is the lowest, and every
rounded result is in that form. So the number nearest to a quotient that is a number already is that
number, and whatever is exact by itself, such as one times a number, gives back just what went in.
-/
namespace ClaimCheck
namespace Binary64

/-- A mantissa and an exponent as rounding leaves them. -/
structure Canonical (m : ℕ) (e : ℤ) : Prop where
  bounded : m < 2 ^ 53
  least : minExponent ≤ e
  greatest : e ≤ maxExponent
  full : 2 ^ 52 ≤ m ∨ e = minExponent

/-- A number that is in its form if it is finite. -/
def IsRounded (x : Binary64) : Prop :=
  ∀ s m e, x = .finite s m e → Canonical m e

theorem isRounded_finite_iff {s : Bool} {m : ℕ} {e : ℤ} :
    (finite s m e).IsRounded ↔ Canonical m e := by
  constructor
  · exact fun h => h s m e rfl
  · rintro h _ _ _ ⟨⟩
    exact h

theorem isRounded_infinite (s : Bool) : (infinite s).IsRounded :=
  nofun

/-- The nearest integer to a quotient below a bound is at most that bound. -/
theorem divHalfEven_le_of_lt {z num den : ℕ} (h : num < z * den) : divHalfEven num den ≤ z := by
  have hquotient : num / den < z := Nat.div_lt_of_lt_mul (by rwa [mul_comm] at h)
  unfold divHalfEven
  dsimp only
  split_ifs <;> omega

theorem scaledHalfEven_le_of_lt {num den z : ℕ} {k : ℤ} (hden : 0 < den)
    (h : (num / den : ℚ) < z * 2 ^ k) : scaledHalfEven num den k ≤ z := by
  have hden' : (0 : ℚ) < den := by exact_mod_cast hden
  rw [div_lt_iff₀ hden'] at h
  unfold scaledHalfEven
  split
  next hk =>
    refine divHalfEven_le_of_lt ?_
    rw [← cast_powerOf_two hk, mul_assoc, mul_comm (powerOf 2 k : ℚ)] at h
    exact_mod_cast h
  next hk =>
    refine divHalfEven_le_of_lt ?_
    have hunit := two_zpow_mul_powerOf_neg (k := k) (by omega)
    have hpow : (0 : ℚ) < powerOf 2 (-k) := by exact_mod_cast powerOf_two_pos (-k)
    have hscaled : (num : ℚ) * powerOf 2 (-k) < z * den := by
      calc (num : ℚ) * powerOf 2 (-k) < z * 2 ^ k * den * powerOf 2 (-k) :=
            mul_lt_mul_of_pos_right h hpow
        _ = z * den := by rw [mul_right_comm (z * 2 ^ k : ℚ), mul_assoc (z : ℚ), hunit, mul_one]
    exact_mod_cast hscaled

section Exponents
variable {num den : ℕ}

/-- Counted in the unit of its mantissa, a quotient is below the bound of all mantissas. -/
theorem ratio_lt_mantissas {e : ℤ} (hnum : 0 < num) (hden : 0 < den)
    (he : floorLog2 num den - 52 ≤ e) : (num / den : ℚ) < ((2 ^ 53 : ℕ) : ℚ) * 2 ^ e := by
  have hupper := (floorLog2_spec hnum hden).2
  calc (num / den : ℚ) < 2 ^ (floorLog2 num den + 1) := hupper
    _ ≤ 2 ^ (53 + e) := zpow_le_zpow_right₀ one_le_two (by omega)
    _ = ((2 ^ 53 : ℕ) : ℚ) * 2 ^ e := by
        rw [zpow_add₀ two_ne_zero, Nat.cast_pow, Nat.cast_ofNat]
        norm_num

theorem ofRatio_isRounded (s : Bool) (hden : 0 < den) : (ofRatio s num den).IsRounded := by
  by_cases hnum : num = 0
  · rw [ofRatio, if_pos hnum]
    exact isRounded_finite_iff.mpr ⟨by decide, le_rfl, by decide, .inr rfl⟩
  · have hpos := Nat.pos_of_ne_zero hnum
    have hbound : scaledHalfEven num den (unitExponent num den) ≤ 2 ^ 53 :=
      scaledHalfEven_le_of_lt hden (ratio_lt_mantissas hpos hden (le_max_left _ _))
    have hfull : 2 ^ 52 ≤ scaledHalfEven num den (unitExponent num den) ∨
        unitExponent num den = minExponent := by
      rcases max_choice (floorLog2 num den - 52) minExponent with hmax | hmax
      · rw [unitExponent, hmax]
        have hmantissa := (full_mantissa_mul _).trans_le (floorLog2_spec hpos hden).1
        exact .inl (le_scaledHalfEven hden hmantissa)
      · exact .inr hmax
    have hleast : minExponent ≤ unitExponent num den := le_max_right _ _
    obtain ⟨m, e, hratio, hvalue, hcarry⟩ := ofRatio_eq s den hnum
    rw [hratio]
    split
    next => exact isRounded_infinite s
    next hgreatest =>
      rw [isRounded_finite_iff]
      rcases hcarry with ⟨rfl, hm⟩ | ⟨rfl, rfl⟩
      · have hsame : m = scaledHalfEven num den (unitExponent num den) := by
          exact_mod_cast mul_right_cancel₀ (zpow_ne_zero _ two_ne_zero) hvalue
        rw [← hsame] at hbound hfull
        exact ⟨lt_of_le_of_ne hbound hm, hleast, not_lt.mp hgreatest, hfull⟩
      · exact ⟨by decide, by omega, not_lt.mp hgreatest, .inl le_rfl⟩

theorem ofRatio_sign {s t : Bool} {m : ℕ} {e : ℤ} (h : ofRatio s num den = .finite t m e) :
    t = s := by
  unfold ofRatio at h
  dsimp only at h
  split_ifs at h <;> cases h <;> rfl

/-- A quotient that is a number already is not rounded. -/
theorem ofRatio_eq_of_canonical (s : Bool) {m : ℕ} {e : ℤ} (hden : 0 < den) (hm : Canonical m e)
    (h : (num / den : ℚ) = m * 2 ^ e) : ofRatio s num den = .finite s m e := by
  obtain ⟨hbounded, hleast, hgreatest, hfull⟩ := hm
  have hunit : (0 : ℚ) < 2 ^ e := by positivity
  unfold ofRatio
  split
  next hnum =>
    rw [hnum, Nat.cast_zero, zero_div, zero_eq_mul, or_iff_left hunit.ne'] at h
    have hzero : m = 0 := by exact_mod_cast h
    have he : e = minExponent := hfull.resolve_left (by omega)
    rw [hzero, he]
  next hnum =>
    have hpos := Nat.pos_of_ne_zero hnum
    obtain ⟨hlower, hupper⟩ := floorLog2_spec hpos hden
    have hlog : floorLog2 num den < 53 + e := by
      have hlt : (2 : ℚ) ^ floorLog2 num den < 2 ^ (53 + e) := by
        calc (2 : ℚ) ^ floorLog2 num den ≤ m * 2 ^ e := h ▸ hlower
          _ < 2 ^ 53 * 2 ^ e := mul_lt_mul_of_pos_right (by exact_mod_cast hbounded) hunit
          _ = 2 ^ (53 + e) := by rw [zpow_add₀ two_ne_zero]; norm_num
      exact (zpow_lt_zpow_iff_right₀ one_lt_two).mp hlt
    have hexponent : max (floorLog2 num den - 52) minExponent = e := by
      rcases hfull with hfull | rfl
      · have hlt : (2 : ℚ) ^ (52 + e) < 2 ^ (floorLog2 num den + 1) := by
          calc (2 : ℚ) ^ (52 + e) = 2 ^ 52 * 2 ^ e := by rw [zpow_add₀ two_ne_zero]; norm_num
            _ ≤ m * 2 ^ e := mul_le_mul_of_nonneg_right (by exact_mod_cast hfull) hunit.le
            _ < 2 ^ (floorLog2 num den + 1) := h ▸ hupper
        have hle := (zpow_lt_zpow_iff_right₀ one_lt_two).mp hlt
        omega
      · omega
    dsimp only
    rw [hexponent, scaledHalfEven_of_eq hden h, if_neg (show ¬m = powerOf 2 53 from hbounded.ne),
      if_neg (not_lt.mpr hgreatest)]

end Exponents

/-- An exact result that is a number already is not rounded, and a zero takes the given sign. -/
theorem ofScaled_eq_of_canonical {zeroSign s : Bool} {n k e : ℤ} {m : ℕ} (hm : Canonical m e)
    (h : (n : ℚ) * 2 ^ k = signed s m * 2 ^ e) (hzero : m = 0 → zeroSign = s) :
    ofScaled zeroSign n k = .finite s m e := by
  have hk : (0 : ℚ) < 2 ^ k := by positivity
  have he : (0 : ℚ) < 2 ^ e := by positivity
  have hsize : (n.natAbs : ℚ) * 2 ^ k = m * 2 ^ e := by
    have habs := congrArg abs h
    rwa [abs_mul, abs_mul, abs_signed, abs_of_pos hk, abs_of_pos he, ← Int.cast_abs,
      Int.abs_eq_natAbs, Int.cast_natCast] at habs
  have hsign : (if n = 0 then zeroSign else decide (n < 0)) = s := by
    split
    next hn =>
      rw [hn, Int.natAbs_zero, Nat.cast_zero, zero_mul, zero_eq_mul, or_iff_left he.ne'] at hsize
      exact hzero (by exact_mod_cast hsize)
    next hn =>
      cases s with
      | false =>
          have hpos : (0 : ℚ) ≤ n * 2 ^ k := h ▸ mul_nonneg (Nat.cast_nonneg m) he.le
          have hnonneg : 0 ≤ n := by exact_mod_cast nonneg_of_mul_nonneg_left hpos hk
          exact decide_eq_false (not_lt.mpr hnonneg)
      | true =>
          have hneg : (n : ℚ) * 2 ^ k ≤ 0 := by
            rw [h, signed, if_pos rfl, Int.cast_neg, Int.cast_natCast, neg_mul]
            exact neg_nonpos.mpr (by positivity)
          have hle : (n : ℚ) ≤ 0 := nonpos_of_mul_nonpos_left hneg hk
          have hnonpos : n ≤ 0 := by exact_mod_cast hle
          exact decide_eq_true (lt_of_le_of_ne hnonpos hn)
  obtain ⟨num, den, hden, hvalue, hscaled⟩ := ofScaled_eq_ofRatio zeroSign n k
  rw [hscaled, hsign]
  exact ofRatio_eq_of_canonical s hden hm (hvalue.trans hsize)

/-- One times a number is the number, with its sign. -/
theorem IsRounded.mul_ofInt_one {x : Binary64} (hx : x.IsRounded) : x * ofInt 1 = x := by
  have hone : ofInt 1 = .finite false (2 ^ 52) (-52) := rfl
  rw [hone]
  cases x with
  | finite s m e =>
      refine ofScaled_eq_of_canonical (isRounded_finite_iff.mp hx) ?_ fun _ => Bool.bne_false s
      have hunit : (2 : ℚ) ^ (52 : ℤ) * 2 ^ (-52 : ℤ) = 1 := by
        rw [← zpow_add₀ two_ne_zero]
        rfl
      calc ((signed s m * signed false (2 ^ 52) : ℤ) : ℚ) * 2 ^ (e + -52)
          = signed s m * 2 ^ e * (2 ^ (52 : ℤ) * 2 ^ (-52 : ℤ)) := by
            rw [zpow_add₀ two_ne_zero]
            push_cast [signed]
            ring
        _ = signed s m * 2 ^ e := by rw [hunit, mul_one]
  | infinite s =>
      change Binary64.mul (.infinite s) (.finite false (2 ^ 52) (-52)) = .infinite s
      rw [Binary64.mul, if_neg (by decide), Bool.bne_false]
  | nan => rfl

/-- Zero and a number make the number, unless it is the zero below. -/
theorem IsRounded.zero_add {x : Binary64} (hx : x.IsRounded) (hzero : ∀ e, x ≠ .finite true 0 e) :
    zero + x = x := by
  have hunit : zero = .finite false 0 minExponent := rfl
  rw [hunit]
  cases x with
  | finite s m e =>
      refine ofScaled_eq_of_canonical (isRounded_finite_iff.mp hx) ?_ ?_
      · rw [signed_zero, zero_mul, Int.zero_add, Int.cast_mul, Int.cast_natCast, mul_assoc,
          powerOf_two_sub_mul (min_le_right _ _)]
      · rintro rfl
        cases s with
        | false => rfl
        | true => exact absurd rfl (hzero e)
  | infinite s => rfl
  | nan => rfl

end Binary64

namespace Decimal

theorem toBinary64_isRounded (s : Bool) (d : Decimal) : (d.toBinary64 s).IsRounded := by
  rcases d.toBinary64_eq s with h | ⟨num, den, hden, h⟩
  · exact h ▸ Binary64.isRounded_infinite s
  · exact h ▸ Binary64.ofRatio_isRounded s hden

theorem toBinary64_sign {s t : Bool} {d : Decimal} {m : ℕ} {e : ℤ}
    (hd : d.toBinary64 s = .finite t m e) : t = s := by
  rcases d.toBinary64_eq s with h | ⟨num, den, _, h⟩
  · rw [h] at hd
    cases hd
  · exact Binary64.ofRatio_sign (h.symm.trans hd)

end Decimal

end ClaimCheck
