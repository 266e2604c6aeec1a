import ClaimCheck.Proofs.Number.Numeral
import ClaimCheck.Proofs.Number.Sign
/-!
What rounding does not take away. A whole number up to `2 ^ 53` is a number of its own, so nothing
that is at least as large is rounded to less, however large it is. Sums and products therefore keep
every such bound that the exact results keep, also where they have no finite result any more.
-/
namespace ClaimCheck
namespace Binary64

/-- Not below a whole number: the infinity above all numbers, or a finite number of that size or
a greater one. -/
def Reaches (n : ℕ) (x : Binary64) : Prop :=
  x = .infinite false ∨ ∃ q, x.value? = some q ∧ (n : ℚ) ≤ q

theorem reaches_zero_iff {x : Binary64} : x.Reaches 0 ↔ x.isNonNegative = true := by
  rw [isNonNegative_iff, Reaches, AtLeastZero, Nat.cast_zero]

theorem reaches_unsigned_iff {n m : ℕ} {e : ℤ} :
    (finite false m e).Reaches n ↔ (n : ℚ) ≤ m * 2 ^ e := by
  simp [Reaches, value?_finite, signed]

theorem Reaches.infinite_or_finite {x : Binary64} {n : ℕ} (h : x.Reaches n) :
    x = .infinite false ∨ ∃ s m e, x = .finite s m e ∧ (n : ℚ) ≤ signed s m * 2 ^ e := by
  rcases h with h | ⟨q, hq, hn⟩
  · exact .inl h
  · cases x with
    | finite s m e =>
        rw [value?_finite, Option.some.injEq] at hq
        exact .inr ⟨s, m, e, rfl, hq ▸ hn⟩
    | infinite s => cases hq
    | nan => cases hq

theorem Reaches.mono {x : Binary64} {a b : ℕ} (h : x.Reaches a) (hb : b ≤ a) : x.Reaches b := by
  obtain h | ⟨q, hq, ha⟩ := h
  · exact .inl h
  · have hcast : (b : ℚ) ≤ a := by exact_mod_cast hb
    exact .inr ⟨q, hq, hcast.trans ha⟩

/-- The nearest integer does not pass an integer on its way. -/
theorem le_divHalfEven {z num den : ℕ} (hden : 0 < den) (h : z * den ≤ num) :
    z ≤ divHalfEven num den := by
  have hquotient : z ≤ num / den := (Nat.le_div_iff_mul_le hden).mpr h
  unfold divHalfEven
  dsimp only
  split_ifs <;> omega

theorem le_scaledHalfEven {num den z : ℕ} {k : ℤ} (hden : 0 < den)
    (h : (z : ℚ) * 2 ^ k ≤ num / den) : z ≤ scaledHalfEven num den k := by
  have hden' : (0 : ℚ) < den := by exact_mod_cast hden
  rw [le_div_iff₀ hden'] at h
  unfold scaledHalfEven
  split
  next hk =>
    refine le_divHalfEven (Nat.mul_pos hden (powerOf_two_pos k)) ?_
    rw [← cast_powerOf_two hk, mul_assoc, mul_comm (powerOf 2 k : ℚ)] at h
    exact_mod_cast h
  next hk =>
    refine le_divHalfEven hden ?_
    have hone := two_zpow_mul_powerOf_neg (k := k) (by omega)
    have hscaled : (z : ℚ) * den ≤ num * powerOf 2 (-k) := by
      calc (z : ℚ) * den = z * 2 ^ k * den * powerOf 2 (-k) := by
            rw [mul_right_comm (z * 2 ^ k : ℚ), mul_assoc (z : ℚ), hone, mul_one]
        _ ≤ num * powerOf 2 (-k) := mul_le_mul_of_nonneg_right h (Nat.cast_nonneg _)
    exact_mod_cast hscaled

/-- A full mantissa counts up to a power of two. -/
theorem full_mantissa_mul (k : ℤ) : ((2 ^ 52 : ℕ) : ℚ) * 2 ^ (k - 52) = 2 ^ k := by
  rw [Nat.cast_pow, Nat.cast_ofNat, ← zpow_natCast, ← zpow_add₀ two_ne_zero]
  congr 1
  omega

/-- Between a whole number and a quotient that reaches it lies a full mantissa, or a multiple of
the unit that the mantissa of the quotient counts in. -/
theorem exists_mantissa_between {num den n : ℕ} (hnum : 0 < num) (hden : 0 < den)
    (h : (n : ℚ) ≤ num / den) (hn : n ≤ 2 ^ 53) :
    ∃ z : ℕ, (z : ℚ) * 2 ^ unitExponent num den ≤ num / den ∧
      (n : ℚ) ≤ z * 2 ^ unitExponent num den := by
  have hlower := (floorLog2_spec hnum hden).1
  unfold unitExponent
  generalize floorLog2 num den = k at hlower ⊢
  by_cases hk : k ≤ 52
  · have hunit := two_zpow_mul_powerOf_neg (k := max (k - 52) minExponent)
      (by unfold minExponent; omega)
    have hexact : ((n * powerOf 2 (-max (k - 52) minExponent) : ℕ) : ℚ) *
        2 ^ (max (k - 52) minExponent) = n := by
      rw [Nat.cast_mul, mul_assoc, mul_comm (powerOf 2 _ : ℚ), hunit, mul_one]
    exact ⟨_, hexact.trans_le h, hexact.ge⟩
  · have hexponent : max (k - 52) minExponent = k - 52 :=
      max_eq_left (by unfold minExponent; omega)
    have hfull := full_mantissa_mul k
    have hmax : (n : ℚ) ≤ 2 ^ k := by
      calc (n : ℚ) ≤ 2 ^ (53 : ℤ) := by exact_mod_cast hn
        _ ≤ 2 ^ k := zpow_le_zpow_right₀ one_le_two (by omega)
    rw [hexponent]
    exact ⟨2 ^ 52, hfull.trans_le hlower, hmax.trans_eq hfull.symm⟩

theorem ofRatio_reaches {num den n : ℕ} (hden : 0 < den) (hn : n ≤ 2 ^ 53)
    (h : (n : ℚ) ≤ num / den) : (ofRatio false num den).Reaches n := by
  by_cases hnum : num = 0
  · rw [hnum, Nat.cast_zero, zero_div] at h
    rw [ofRatio, if_pos hnum, reaches_unsigned_iff, Nat.cast_zero, zero_mul]
    exact h
  · obtain ⟨z, hz, hnz⟩ := exists_mantissa_between (Nat.pos_of_ne_zero hnum) hden h hn
    obtain ⟨m, e, hratio, hvalue, _⟩ := ofRatio_eq false den hnum
    rw [hratio]
    split
    next => exact .inl rfl
    next =>
      have hle : (z : ℚ) ≤ scaledHalfEven num den (unitExponent num den) := by
        exact_mod_cast le_scaledHalfEven hden hz
      rw [reaches_unsigned_iff, hvalue]
      exact hnz.trans (mul_le_mul_of_nonneg_right hle (by positivity))

theorem ofScaled_reaches (zeroSign : Bool) {n exponent : ℤ} {c : ℕ} (hc : c ≤ 2 ^ 53)
    (h : (c : ℚ) ≤ n * 2 ^ exponent) : (ofScaled zeroSign n exponent).Reaches c := by
  have hpos : (0 : ℚ) < 2 ^ exponent := by positivity
  have hn : 0 ≤ n := by
    have hcast : (0 : ℚ) ≤ n := nonneg_of_mul_nonneg_left ((Nat.cast_nonneg c).trans h) hpos
    exact_mod_cast hcast
  rcases hn.eq_or_lt with rfl | hn
  · rw [Int.cast_zero, zero_mul] at h
    have hzero : c = 0 := by exact_mod_cast le_antisymm h (Nat.cast_nonneg c)
    rw [hzero, reaches_zero_iff]
    exact ofScaled_isNonNegative zeroSign exponent le_rfl
  · have habs : (n.natAbs : ℚ) = n := by
      rw [← Int.cast_natCast, Int.natAbs_of_nonneg hn.le]
    obtain ⟨num, den, hden, hvalue, hscaled⟩ := ofScaled_eq_ofRatio zeroSign n exponent
    rw [habs] at hvalue
    rw [hscaled, if_neg hn.ne', decide_eq_false (not_lt.mpr hn.le)]
    exact ofRatio_reaches hden hc (h.trans_eq hvalue.symm)

theorem Reaches.add {x y : Binary64} {a b c : ℕ} (hx : x.Reaches a) (hy : y.Reaches b)
    (hc : c ≤ 2 ^ 53) (h : c ≤ a + b) : (x + y).Reaches c := by
  obtain rfl | ⟨s, m, e, rfl, hm⟩ := hx.infinite_or_finite
  · obtain rfl | ⟨t, n, f, rfl, -⟩ := hy.infinite_or_finite
    · exact .inl rfl
    · exact .inl rfl
  · obtain rfl | ⟨t, n, f, rfl, hn⟩ := hy.infinite_or_finite
    · exact .inl rfl
    · refine ofScaled_reaches _ hc ?_
      generalize hlow : min e f = low
      have hsum : ((signed s m * powerOf 2 (e - low) + signed t n * powerOf 2 (f - low) : ℤ) : ℚ) *
          2 ^ low = signed s m * 2 ^ e + signed t n * 2 ^ f := by
        rw [← powerOf_two_sub_mul (show low ≤ e by omega),
          ← powerOf_two_sub_mul (show low ≤ f by omega)]
        push_cast
        ring
      have hcast : (c : ℚ) ≤ a + b := by exact_mod_cast h
      rw [hsum]
      exact hcast.trans (add_le_add hm hn)

theorem signed_pos_iff {s : Bool} {m : ℕ} : 0 < signed s m ↔ s = false ∧ m ≠ 0 := by
  cases s <;> simp [signed]; omega

/-- Scaling by a whole number above zero scales what is reached. -/
theorem Reaches.mul_whole {x y : Binary64} {a b c : ℕ} (hx : x.Reaches a) (hy : y.IsWhole b)
    (hb : 0 < b) (hc : c ≤ 2 ^ 53) (h : c ≤ a * b) : (x * y).Reaches c := by
  obtain ⟨t, n, f, rfl, -, -⟩ := hy.eq_finite
  rw [IsWhole, value?_finite, Option.some.injEq, Int.cast_natCast] at hy
  have hb' : (0 : ℚ) < b := by exact_mod_cast hb
  obtain rfl | ⟨s, m, e, rfl, hm⟩ := hx.infinite_or_finite
  · have hscale : (0 : ℚ) < signed t n := by
      rwa [← hy, mul_pos_iff_of_pos_right (by positivity)] at hb'
    obtain ⟨rfl, hn⟩ := signed_pos_iff.mp (by exact_mod_cast hscale)
    change (Binary64.mul (.infinite false) (finite false n f)).Reaches c
    rw [Binary64.mul, if_neg hn]
    exact .inl rfl
  · refine ofScaled_reaches _ hc ?_
    have hproduct : ((signed s m * signed t n : ℤ) : ℚ) * 2 ^ (e + f) =
        signed s m * 2 ^ e * b := by
      rw [← hy, zpow_add₀ two_ne_zero]
      push_cast
      ring
    have hcast : (c : ℚ) ≤ a * b := by exact_mod_cast h
    rw [hproduct]
    exact hcast.trans (mul_le_mul_of_nonneg_right hm hb'.le)

/-- Cutting off what is behind the point does not go below a whole number. -/
theorem Reaches.le_trunc {x : Binary64} {n : ℕ} {t : ℤ} (h : x.Reaches n) (hn : 0 < n)
    (ht : x.trunc? = some t) : (n : ℤ) ≤ t := by
  obtain rfl | ⟨s, m, e, rfl, hm⟩ := h.infinite_or_finite
  · cases ht
  · have hpos : (0 : ℚ) < signed s m := by
      have hvalue : (0 : ℚ) < signed s m * 2 ^ e := lt_of_lt_of_le (by exact_mod_cast hn) hm
      rwa [mul_pos_iff_of_pos_right (by positivity)] at hvalue
    obtain ⟨rfl, -⟩ := signed_pos_iff.mp (by exact_mod_cast hpos)
    rw [trunc?, Option.some.injEq] at ht
    subst ht
    simp only [signed, Bool.false_eq_true, if_false, Int.cast_natCast] at hm ⊢
    split
    next he =>
      rw [← cast_powerOf_two he] at hm
      exact_mod_cast hm
    next he =>
      have hunit := two_zpow_mul_powerOf_neg (k := e) (by omega)
      have hscaled : (n : ℚ) * powerOf 2 (-e) ≤ m := by
        calc (n : ℚ) * powerOf 2 (-e) ≤ m * 2 ^ e * powerOf 2 (-e) :=
              mul_le_mul_of_nonneg_right hm (Nat.cast_nonneg _)
          _ = m := by rw [mul_assoc, hunit, mul_one]
      have hquotient : n ≤ m / powerOf 2 (-e) :=
        (Nat.le_div_iff_mul_le (powerOf_two_pos (-e))).mpr (by exact_mod_cast hscaled)
      exact_mod_cast hquotient

theorem fraction_isNonNegative {x : Binary64} (h : x.isNonNegative = true) :
    x.fraction.isNonNegative = true := by
  cases x with
  | finite s m e =>
      by_cases he : 0 ≤ e
      · rw [fraction, if_pos he]
        exact Bool.or_true _
      · rw [fraction, if_neg he]
        refine ofScaled_isNonNegative s e ?_
        cases s with
        | false => exact Int.natCast_nonneg _
        | true =>
            have hm : m = 0 := by simpa [isNonNegative] using h
            rw [hm, Nat.zero_mod, signed_zero]
  | infinite s => exact h
  | nan => exact h

/-- What is not below zero is not rounded below zero. -/
theorem roundHalfEven?_nonneg {x : Binary64} {n : ℤ} (hx : x.isNonNegative = true)
    (h : x.roundHalfEven? = some n) : 0 ≤ n := by
  cases x with
  | finite s m e =>
      cases h
      cases s with
      | false => exact Int.natCast_nonneg _
      | true =>
          have hm : m = 0 := by simpa [isNonNegative] using hx
          have hzero : scaledHalfEven m 1 (-e) = 0 :=
            scaledHalfEven_of_eq one_pos (by rw [hm, Nat.cast_zero, zero_div, zero_mul])
          rw [hzero, signed_zero]
  | infinite s => cases h
  | nan => cases h

end Binary64

namespace Decimal

theorem cast_powerOf_ten {k : ℤ} (h : 0 ≤ k) : (powerOf 10 k : ℚ) = 10 ^ k := by
  have hpow : powerOf 10 k = 10 ^ k.toNat := rfl
  rw [hpow, Nat.cast_pow, Nat.cast_ofNat, ← zpow_natCast, Int.toNat_of_nonneg h]

/-- A decimal that is far below the finite numbers is less than one. -/
theorem value_lt_one {d : Decimal} (h : d.power + (Nat.log2 d.digits : ℤ) < -400) :
    (d.digits : ℚ) * 10 ^ d.power < 1 := by
  have hten : (10 : ℚ) ^ d.power ≤ 2 ^ d.power := by
    obtain ⟨k, hk⟩ := Int.exists_eq_neg_ofNat (show d.power ≤ 0 by omega)
    rw [hk, zpow_neg, zpow_neg, zpow_natCast, zpow_natCast]
    exact inv_anti₀ (by positivity) (pow_le_pow_left₀ two_pos.le (by norm_num) k)
  calc (d.digits : ℚ) * 10 ^ d.power
      < 2 ^ ((Nat.log2 d.digits : ℤ) + 1) * 2 ^ d.power :=
        mul_lt_mul (Binary64.lt_two_zpow_log2 d.digits) hten (by positivity) (by positivity)
    _ = 2 ^ ((Nat.log2 d.digits : ℤ) + 1 + d.power) := (zpow_add₀ two_ne_zero _ _).symm
    _ ≤ 1 := zpow_le_one_of_nonpos₀ one_le_two (by omega)

/-- A decimal is read as a number that is not below any whole number it reaches. -/
theorem toBinary64_reaches {d : Decimal} {n : ℕ} (hn : n ≤ 2 ^ 53)
    (h : (n : ℚ) ≤ d.digits * 10 ^ d.power) : (d.toBinary64 false).Reaches n := by
  unfold toBinary64
  split_ifs with hzero hlarge hsmall hpower
  · rw [hzero, Nat.cast_zero, zero_mul] at h
    exact Binary64.ofRatio_reaches one_pos hn (by simpa using h)
  · exact .inl rfl
  · have hlt := h.trans_lt (value_lt_one hsmall)
    have hn : n = 0 := Nat.lt_one_iff.mp (by exact_mod_cast hlt)
    subst hn
    exact Binary64.ofRatio_reaches one_pos (by decide) (by norm_num)
  · refine Binary64.ofRatio_reaches one_pos hn ?_
    rwa [Nat.cast_mul, cast_powerOf_ten hpower, Nat.cast_one, div_one]
  · refine Binary64.ofRatio_reaches (powerOf_ten_pos _) hn ?_
    rwa [cast_powerOf_ten (by omega), zpow_neg, div_inv_eq_mul]

end Decimal
end ClaimCheck
