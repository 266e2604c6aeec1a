import ClaimCheck.Number.Numeral
import ClaimCheck.Proofs.Value.Equality
import ClaimCheck.Proofs.Number.Rounding

namespace ClaimCheck
namespace Binary64

/-- Equality with zero, as values are compared. -/
def EqualsZero (x : Binary64) : Prop :=
  (Value.float x).equal (.float .zero) = true

/-- Zero or above: the infinity above all numbers, or a finite number that is not below zero. -/
def AtLeastZero (x : Binary64) : Prop :=
  x = .infinite false ∨ ∃ q, x.value? = some q ∧ 0 ≤ q

theorem value?_eq_zero_iff (s : Bool) (m : ℕ) (e : ℤ) :
    value? (.finite s m e) = some 0 ↔ m = 0 := by
  have hpow : (2 : ℚ) ^ e ≠ 0 := zpow_ne_zero e two_ne_zero
  rw [value?_finite, Option.some.injEq, mul_eq_zero, or_iff_left hpow]
  cases s <;> simp [signed]

theorem key?_finite (s : Bool) (m : ℕ) (e : ℤ) :
    (Value.float (.finite s m e)).key? = some (.number (.finite ((signed s m : ℚ) * 2 ^ e))) := by
  simp only [Value.key?, Value.magnitude?, value?_finite, Option.map_some]

theorem equalsZero_iff (x : Binary64) : x.EqualsZero ↔ x.value? = some 0 := by
  have hzero : (Value.float zero).key? = some (.number (.finite 0)) := by
    refine (key?_finite false 0 minExponent).trans ?_
    simp [signed]
  have hequal : (Value.float x).equal (.float zero) = Value.scalarEqual (.float x) (.float zero) := by
    simp only [Value.equal]
  rw [EqualsZero, hequal, Value.scalarEqual_iff, hzero]
  cases x with
  | finite s m e => simp [key?_finite, value?_finite]
  | infinite s => simp [Value.key?, Value.magnitude?, value?]
  | nan => simp [Value.key?, Value.magnitude?, value?]

theorem isNonNegative_iff (x : Binary64) : x.isNonNegative = true ↔ x.AtLeastZero := by
  cases x with
  | finite s m e =>
      have hpow : (0 : ℚ) < 2 ^ e := zpow_pos two_pos e
      simp only [AtLeastZero, reduceCtorEq, false_or, value?_finite, Option.some.injEq,
        exists_eq_left', mul_nonneg_iff_of_pos_right hpow]
      cases s <;> simp [isNonNegative, signed]
  | infinite s => cases s <;> simp [isNonNegative, AtLeastZero, value?]
  | nan => simp [isNonNegative, AtLeastZero, value?]

theorem isPositive_iff_not_equalsZero {x : Binary64} (h : x.AtLeastZero) :
    x.isPositive = true ↔ ¬ x.EqualsZero := by
  rw [← isNonNegative_iff] at h
  rw [equalsZero_iff]
  cases x with
  | finite s m e =>
      rw [value?_eq_zero_iff]
      cases s with
      | false => simp [isPositive]
      | true =>
          have hm : m = 0 := by simpa [isNonNegative] using h
          simp [isPositive, hm]
  | infinite s =>
      cases s with
      | false => exact ⟨fun _ => nofun, fun _ => rfl⟩
      | true => cases h
  | nan => cases h

theorem ofRatio_isNonNegative {s : Bool} {num : ℕ} (den : ℕ) (h : s = true → num = 0) :
    (ofRatio s num den).isNonNegative = true := by
  unfold ofRatio
  split
  next => exact Bool.or_true _
  next hne =>
    have hs : s = false := Bool.eq_false_iff.mpr fun hs => hne (h hs)
    subst hs
    dsimp only
    split <;> split <;> rfl

theorem ofScaled_isNonNegative (zeroSign : Bool) {n : ℤ} (exponent : ℤ) (h : 0 ≤ n) :
    (ofScaled zeroSign n exponent).isNonNegative = true := by
  have hsign : (if n = 0 then zeroSign else decide (n < 0)) = true → n.natAbs = 0 := by
    split
    next hzero => exact fun _ => Int.natAbs_eq_zero.mpr hzero
    next => exact fun hneg => absurd (of_decide_eq_true hneg) (not_lt.mpr h)
  unfold ofScaled
  dsimp only
  split
  next => exact ofRatio_isNonNegative _ fun hs => by rw [hsign hs, Nat.zero_mul]
  next => exact ofRatio_isNonNegative _ hsign

theorem signed_nonneg {s : Bool} {m : ℕ} {e : ℤ} (h : (finite s m e).isNonNegative = true) :
    0 ≤ signed s m := by
  cases s with
  | false => exact Int.natCast_nonneg m
  | true =>
      have hm : m = 0 := by simpa [isNonNegative] using h
      rw [hm]
      exact le_refl _

theorem isNonNegative_add {x y : Binary64} (hx : x.isNonNegative = true)
    (hy : y.isNonNegative = true) : (x + y).isNonNegative = true := by
  change (add x y).isNonNegative = true
  cases x with
  | nan => cases hx
  | infinite s =>
      cases s with
      | true => cases hx
      | false =>
          cases y with
          | nan => cases hy
          | infinite t =>
              cases t with
              | true => cases hy
              | false => rfl
          | finite t n f => rfl
  | finite s m e =>
      cases y with
      | nan => cases hy
      | infinite t => exact hy
      | finite t n f =>
          have hm := signed_nonneg hx
          have hn := signed_nonneg hy
          exact ofScaled_isNonNegative _ _ (by positivity)

theorem isNonNegative_mul {x : Binary64} {n : ℕ} (f : ℤ) (hx : x.isNonNegative = true)
    (hn : n ≠ 0) : (x * finite false n f).isNonNegative = true := by
  change (mul x (finite false n f)).isNonNegative = true
  cases x with
  | nan => cases hx
  | infinite s =>
      cases s with
      | true => cases hx
      | false => rw [mul, if_neg hn]; rfl
  | finite s m e =>
      have hm := signed_nonneg hx
      exact ofScaled_isNonNegative _ _ (mul_nonneg hm (Int.natCast_nonneg n))

end Binary64

namespace Decimal

theorem powerOf_ten_pos (k : ℤ) : 0 < powerOf 10 k :=
  Nat.pow_pos (by decide)

/-- A decimal is read as a rounded quotient, or it is too large. -/
theorem toBinary64_eq (s : Bool) (d : Decimal) :
    d.toBinary64 s = .infinite s ∨
      ∃ num den, 0 < den ∧ d.toBinary64 s = Binary64.ofRatio s num den := by
  unfold toBinary64
  split_ifs
  · exact .inr ⟨_, _, one_pos, rfl⟩
  · exact .inl rfl
  · exact .inr ⟨_, _, one_pos, rfl⟩
  · exact .inr ⟨_, _, one_pos, rfl⟩
  · exact .inr ⟨_, _, powerOf_ten_pos _, rfl⟩

/-- A decimal without a sign is zero or above, also where it is too large for a finite number. -/
theorem toBinary64_isNonNegative (d : Decimal) : (d.toBinary64 false).isNonNegative = true := by
  rcases d.toBinary64_eq false with h | ⟨num, den, _, h⟩
  · rw [h]
    rfl
  · rw [h]
    exact Binary64.ofRatio_isNonNegative _ nofun

end Decimal
end ClaimCheck
