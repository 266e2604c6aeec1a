import ClaimCheck.Number.Binary64
import Mathlib.Algebra.Order.Field.Power
import Mathlib.Data.Rat.Defs
import Mathlib.Tactic
/-!
What rounding does to the size of a number. Quotients are compared over the rationals: the
binary logarithm brackets a quotient between two powers of two, the rounded mantissa is at
most a half away from the exact one, and so a result is at most twice as large as what it
stands for. Only a quotient near the upper end of the range has no finite result.
-/
namespace ClaimCheck.Binary64

theorem powerOf_two_pos (k : ℤ) : 0 < powerOf 2 k :=
  Nat.pow_pos two_pos

theorem cast_powerOf_two {k : ℤ} (h : 0 ≤ k) : (powerOf 2 k : ℚ) = 2 ^ k := by
  have hpow : powerOf 2 k = 2 ^ k.toNat := rfl
  rw [hpow, Nat.cast_pow, Nat.cast_ofNat, ← zpow_natCast, Int.toNat_of_nonneg h]

theorem two_zpow_mul_powerOf_neg {k : ℤ} (h : k ≤ 0) : (2 : ℚ) ^ k * powerOf 2 (-k) = 1 := by
  rw [cast_powerOf_two (by omega), ← zpow_add₀ two_ne_zero, add_neg_cancel, zpow_zero]

theorem powerOf_two_sub_mul {e low : ℤ} (h : low ≤ e) :
    (powerOf 2 (e - low) : ℚ) * 2 ^ low = 2 ^ e := by
  rw [cast_powerOf_two (by omega), ← zpow_add₀ two_ne_zero, sub_add_cancel]

theorem powLeRatio_iff {k : ℤ} {num den : ℕ} (hden : 0 < den) :
    powLeRatio k num den = true ↔ (2 : ℚ) ^ k ≤ num / den := by
  have hden' : (0 : ℚ) < den := by exact_mod_cast hden
  unfold powLeRatio
  rw [le_div_iff₀ hden']
  split
  next hk =>
    rw [decide_eq_true_eq, ← cast_powerOf_two hk, mul_comm]
    exact_mod_cast Iff.rfl
  next hk =>
    have hpow : (0 : ℚ) < powerOf 2 (-k) := by exact_mod_cast powerOf_two_pos (-k)
    have hone := two_zpow_mul_powerOf_neg (k := k) (by omega)
    rw [decide_eq_true_eq, ← mul_le_mul_iff_of_pos_right hpow, mul_right_comm, hone, one_mul]
    exact_mod_cast Iff.rfl

theorem two_zpow_log2_le {n : ℕ} (h : 0 < n) : (2 : ℚ) ^ (n.log2 : ℤ) ≤ n := by
  rw [zpow_natCast]
  exact_mod_cast Nat.log2_self_le (by omega)

theorem lt_two_zpow_log2 (n : ℕ) : (n : ℚ) < 2 ^ ((n.log2 : ℤ) + 1) := by
  have h : n < 2 ^ (n.log2 + 1) := Nat.lt_log2_self
  rw [← Nat.cast_succ, zpow_natCast]
  exact_mod_cast h

/-- A quotient lies between the power of two at its logarithm and the next one. -/
theorem floorLog2_spec {num den : ℕ} (hnum : 0 < num) (hden : 0 < den) :
    (2 : ℚ) ^ floorLog2 num den ≤ num / den ∧ (num / den : ℚ) < 2 ^ (floorLog2 num den + 1) := by
  have hnum' : (0 : ℚ) < num := by exact_mod_cast hnum
  have hden' : (0 : ℚ) < den := by exact_mod_cast hden
  have hupper : (num / den : ℚ) < 2 ^ ((num.log2 : ℤ) - den.log2 + 1) := by
    rw [div_lt_iff₀ hden', sub_add_eq_add_sub, zpow_sub₀ two_ne_zero,
      div_mul_eq_mul_div, lt_div_iff₀ (by positivity)]
    exact mul_lt_mul (lt_two_zpow_log2 num) (two_zpow_log2_le hden) (by positivity) (by positivity)
  have hlower : (2 : ℚ) ^ ((num.log2 : ℤ) - den.log2 - 1) ≤ num / den := by
    rw [le_div_iff₀ hden', sub_sub, zpow_sub₀ two_ne_zero, div_mul_eq_mul_div,
      div_le_iff₀ (by positivity)]
    exact mul_le_mul (two_zpow_log2_le hnum) (lt_two_zpow_log2 den).le (by positivity)
      (by positivity)
  unfold floorLog2
  dsimp only
  split
  next h => exact ⟨(powLeRatio_iff hden).mp h, hupper⟩
  next h =>
    rw [powLeRatio_iff hden, not_le] at h
    exact ⟨hlower, by rwa [sub_add_cancel]⟩

/-- The nearest integer is at most a half above the quotient. -/
theorem divHalfEven_le (num den : ℕ) (hden : 0 < den) :
    (divHalfEven num den : ℚ) ≤ num / den + 1 / 2 := by
  have hden' : (0 : ℚ) < den := by exact_mod_cast hden
  have hsplit := Nat.div_add_mod num den
  have hnat : 2 * (den * divHalfEven num den) ≤ 2 * num + den := by
    have hnext : den * (num / den + 1) = den * (num / den) + den := Nat.mul_succ den (num / den)
    unfold divHalfEven
    dsimp only
    split_ifs <;> omega
  have hrat : 2 * ((den : ℚ) * divHalfEven num den) ≤ 2 * num + den := by exact_mod_cast hnat
  have hmul : (num : ℚ) / den * den = num := div_mul_cancel₀ _ hden'.ne'
  nlinarith

theorem scaledHalfEven_le (num : ℕ) {den : ℕ} (hden : 0 < den) (k : ℤ) :
    (scaledHalfEven num den k : ℚ) * 2 ^ k ≤ num / den + 2 ^ k / 2 := by
  have hden' : (0 : ℚ) < den := by exact_mod_cast hden
  have hpos : (0 : ℚ) < 2 ^ k := by positivity
  unfold scaledHalfEven
  split
  next hk =>
    have h := divHalfEven_le num (den * powerOf 2 k) (Nat.mul_pos hden (powerOf_two_pos k))
    rw [Nat.cast_mul, cast_powerOf_two hk] at h
    calc (divHalfEven num (den * powerOf 2 k) : ℚ) * 2 ^ k
        ≤ (num / (den * 2 ^ k) + 1 / 2) * 2 ^ k := mul_le_mul_of_nonneg_right h hpos.le
      _ = num / den + 2 ^ k / 2 := by field_simp
  next hk =>
    have h := divHalfEven_le (num * powerOf 2 (-k)) den hden
    have hone := two_zpow_mul_powerOf_neg (k := k) (by omega)
    rw [Nat.cast_mul] at h
    calc (divHalfEven (num * powerOf 2 (-k)) den : ℚ) * 2 ^ k
        ≤ ((num : ℚ) * powerOf 2 (-k) / den + 1 / 2) * 2 ^ k :=
          mul_le_mul_of_nonneg_right h hpos.le
      _ = num / den * (2 ^ k * powerOf 2 (-k)) + 2 ^ k / 2 := by ring
      _ = num / den + 2 ^ k / 2 := by rw [hone, mul_one]

/-- Finite numbers of a size of at most a power of two. -/
def Within (k : ℤ) (x : Binary64) : Prop :=
  ∃ s m e, x = .finite s m e ∧ (m : ℚ) * 2 ^ e ≤ 2 ^ k

theorem abs_signed (s : Bool) (m : ℕ) : |(signed s m : ℚ)| = m := by
  cases s <;> simp [signed]

/-- The exact value of a finite number in one form for all exponents. -/
theorem value?_finite (s : Bool) (m : ℕ) (e : ℤ) :
    value? (.finite s m e) = some ((signed s m : ℚ) * 2 ^ e) := by
  rw [value?, Option.some.injEq]
  split
  next he =>
    rw [← cast_powerOf_two he]
    push_cast
    rfl
  next he =>
    have hone := two_zpow_mul_powerOf_neg (k := e) (by omega)
    have hpow : (powerOf 2 (-e) : ℚ) ≠ 0 := by exact_mod_cast (powerOf_two_pos (-e)).ne'
    rw [Rat.mkRat_eq_div, div_eq_iff hpow, mul_assoc, hone, mul_one]

theorem within_of_value? {x : Binary64} {q : ℚ} {k : ℤ} (h : x.value? = some q) (hq : |q| ≤ 2 ^ k) :
    Within k x := by
  cases x with
  | finite s m e =>
      rw [value?_finite, Option.some.injEq] at h
      refine ⟨s, m, e, rfl, ?_⟩
      rwa [← h, abs_mul, abs_signed, abs_of_pos (by positivity)] at hq
  | infinite s => cases h
  | nan => cases h

/-- The exponent of the unit in which the mantissa of a quotient counts. -/
def unitExponent (num den : ℕ) : ℤ :=
  max (floorLog2 num den - 52) minExponent

/-- A quotient above zero comes to a mantissa in its unit. A mantissa of one bit too many is
carried, and what is too large after that has no finite result. -/
theorem ofRatio_eq (s : Bool) {num : ℕ} (den : ℕ) (hnum : num ≠ 0) :
    ∃ (m : ℕ) (e : ℤ), ofRatio s num den = (if maxExponent < e then .infinite s else .finite s m e) ∧
      (m : ℚ) * 2 ^ e =
        scaledHalfEven num den (unitExponent num den) * 2 ^ unitExponent num den ∧
      (e = unitExponent num den ∧ m ≠ 2 ^ 53 ∨ e = unitExponent num den + 1 ∧ m = 2 ^ 52) := by
  rw [ofRatio, if_neg hnum]
  dsimp only
  rw [← unitExponent]
  split
  next hfull =>
    refine ⟨_, _, rfl, ?_, .inr ⟨rfl, rfl⟩⟩
    rw [hfull, cast_powerOf_two (by omega), cast_powerOf_two (by omega), zpow_add_one₀ two_ne_zero]
    ring
  next hfits => exact ⟨_, _, rfl, rfl, .inl ⟨rfl, hfits⟩⟩

theorem ofRatio_within (s : Bool) {num den : ℕ} (hden : 0 < den) {k : ℤ} (hk : 0 ≤ k)
    (hmax : k ≤ 1022) (h : (num / den : ℚ) ≤ 2 ^ k) : Within (k + 1) (ofRatio s num den) := by
  have hdouble : (2 : ℚ) ^ (k + 1) = 2 ^ k + 2 ^ k := by rw [zpow_add_one₀ two_ne_zero]; ring
  by_cases hnum : num = 0
  · rw [ofRatio, if_pos hnum]
    exact ⟨s, 0, minExponent, rfl, by rw [Nat.cast_zero, zero_mul]; positivity⟩
  · have hlog := (floorLog2_spec (Nat.pos_of_ne_zero hnum) hden).1
    have hle : floorLog2 num den ≤ k := (zpow_le_zpow_iff_right₀ one_lt_two).mp (hlog.trans h)
    have hunit : unitExponent num den ≤ k - 52 ∨ unitExponent num den = -1074 := by
      unfold unitExponent minExponent
      omega
    have hsmall : (2 : ℚ) ^ unitExponent num den ≤ 2 ^ k :=
      zpow_le_zpow_right₀ one_le_two (by omega)
    have hround := scaledHalfEven_le num hden (unitExponent num den)
    have hpos : (0 : ℚ) < 2 ^ k := by positivity
    obtain ⟨m, e, hratio, hvalue, hcarry⟩ := ofRatio_eq s den hnum
    rw [hratio, if_neg (by unfold maxExponent; omega)]
    exact ⟨s, m, e, rfl, by linarith⟩

/-- A scaled integer is rounded as a quotient of its size, under its sign. -/
theorem ofScaled_eq_ofRatio (zeroSign : Bool) (n exponent : ℤ) :
    ∃ num den : ℕ, 0 < den ∧ (num / den : ℚ) = n.natAbs * 2 ^ exponent ∧
      ofScaled zeroSign n exponent =
        ofRatio (if n = 0 then zeroSign else decide (n < 0)) num den := by
  unfold ofScaled
  dsimp only
  split
  next hpos =>
    refine ⟨_, _, one_pos, ?_, rfl⟩
    rw [Nat.cast_mul, cast_powerOf_two hpos, Nat.cast_one, div_one]
  next hneg =>
    refine ⟨_, _, powerOf_two_pos _, ?_, rfl⟩
    have hone := two_zpow_mul_powerOf_neg (k := exponent) (by omega)
    have hpow : (powerOf 2 (-exponent) : ℚ) ≠ 0 := by
      exact_mod_cast (powerOf_two_pos (-exponent)).ne'
    rw [div_eq_iff hpow, mul_assoc, hone, mul_one]

theorem ofScaled_within (zeroSign : Bool) {n : ℤ} {exponent k : ℤ} (hk : 0 ≤ k) (hmax : k ≤ 1022)
    (h : (n.natAbs : ℚ) * 2 ^ exponent ≤ 2 ^ k) :
    Within (k + 1) (ofScaled zeroSign n exponent) := by
  obtain ⟨num, den, hden, hvalue, hscaled⟩ := ofScaled_eq_ofRatio zeroSign n exponent
  rw [hscaled]
  exact ofRatio_within _ hden hk hmax (hvalue.trans_le h)

theorem natAbs_signed (s : Bool) (m : ℕ) : (signed s m).natAbs = m := by
  cases s <;> simp [signed]

theorem Within.add {k : ℤ} {x y : Binary64} (hx : Within k x) (hy : Within k y) (hk : 0 ≤ k)
    (hmax : k ≤ 1021) : Within (k + 2) (x.add y) := by
  obtain ⟨s, m, e, rfl, hm⟩ := hx
  obtain ⟨t, n, f, rfl, hn⟩ := hy
  rw [Binary64.add, ← one_add_one_eq_two, ← add_assoc]
  apply ofScaled_within _ (by omega) (by omega)
  generalize hlow : min e f = low
  have habs : ((signed s m * powerOf 2 (e - low) + signed t n * powerOf 2 (f - low)).natAbs : ℚ) ≤
      m * powerOf 2 (e - low) + n * powerOf 2 (f - low) := by
    have hadd := Int.natAbs_add_le (signed s m * powerOf 2 (e - low))
      (signed t n * powerOf 2 (f - low))
    rw [Int.natAbs_mul, Int.natAbs_mul, Int.natAbs_natCast, Int.natAbs_natCast, natAbs_signed,
      natAbs_signed] at hadd
    exact_mod_cast hadd
  calc ((signed s m * powerOf 2 (e - low) + signed t n * powerOf 2 (f - low)).natAbs : ℚ) * 2 ^ low
      ≤ (m * powerOf 2 (e - low) + n * powerOf 2 (f - low)) * 2 ^ low :=
        mul_le_mul_of_nonneg_right habs (by positivity)
    _ = m * 2 ^ e + n * 2 ^ f := by
        rw [← powerOf_two_sub_mul (show low ≤ e by omega),
          ← powerOf_two_sub_mul (show low ≤ f by omega)]
        ring
    _ ≤ 2 ^ (k + 1) := by rw [zpow_add_one₀ two_ne_zero]; linarith

theorem Within.neg {k : ℤ} {x : Binary64} (hx : Within k x) : Within k x.neg := by
  obtain ⟨s, m, e, rfl, hm⟩ := hx
  exact ⟨!s, m, e, rfl, hm⟩

theorem Within.sub {k : ℤ} {x y : Binary64} (hx : Within k x) (hy : Within k y) (hk : 0 ≤ k)
    (hmax : k ≤ 1021) : Within (k + 2) (x - y) :=
  hx.add hy.neg hk hmax

theorem Within.mul {j k : ℤ} {x y : Binary64} (hx : Within j x) (hy : Within k y) (hjk : 0 ≤ j + k)
    (hmax : j + k ≤ 1022) : Within (j + k + 1) (x * y) := by
  obtain ⟨s, m, e, rfl, hm⟩ := hx
  obtain ⟨t, n, f, rfl, hn⟩ := hy
  apply ofScaled_within _ hjk hmax
  rw [Int.natAbs_mul, natAbs_signed, natAbs_signed, Nat.cast_mul, zpow_add₀ two_ne_zero,
    zpow_add₀ two_ne_zero, mul_mul_mul_comm]
  exact mul_le_mul hm hn (by positivity) (by positivity)

theorem Within.trunc? {k : ℤ} {x : Binary64} (hx : Within k x) : ∃ n, x.trunc? = some n := by
  obtain ⟨s, m, e, rfl, -⟩ := hx
  exact ⟨_, rfl⟩

end ClaimCheck.Binary64
