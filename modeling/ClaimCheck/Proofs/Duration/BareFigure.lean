import ClaimCheck.Proofs.Duration.WholeUnits
import ClaimCheck.Proofs.Number.Canonical
/-!
A figure with and without the letter for seconds. The two are read in different ways, the one as a
number and the other as a sum of quantities, but the sum of one figure of seconds is that figure:
neither the scaling by one nor the adding to zero rounds it again.
-/
namespace ClaimCheck

/-- Reading more digits behind a value moves it up at least by their places. -/
theorem Numeral.mul_pow_le_valueOf (value : ℕ) (digits : List ℕ) :
    value * 10 ^ digits.length ≤ valueOf value digits := by
  induction digits generalizing value with
  | nil => rw [List.length_nil, pow_zero, mul_one]; exact le_rfl
  | cons d digits ih =>
      calc value * 10 ^ (digits.length + 1) = value * 10 * 10 ^ digits.length := by ring
        _ ≤ (value * 10 + d) * 10 ^ digits.length := Nat.mul_le_mul_right _ (Nat.le_add_right _ d)
        _ ≤ valueOf (value * 10 + d) digits := ih _

/-- A figure is not less than the digits before its point. -/
theorem Numeral.Figure.whole_le_decimal (f : Figure) :
    (rowValue Text.decimalDigit? f.whole : ℚ) ≤ f.decimal.digits * 10 ^ f.decimal.power := by
  have hdigits := mul_pow_le_valueOf (rowValue Text.decimalDigit? f.whole)
    ((f.places.getD []).filterMap Text.decimalDigit?)
  rw [decimal]
  dsimp only
  rw [zpow_neg, zpow_natCast, ← div_eq_mul_inv, le_div_iff₀ (by positivity)]
  exact_mod_cast hdigits

namespace Duration
open Numeral (Figure)
open Text (isBlank decimalDigit?)

section Readings
variable {f : Figure} {cs front back : List Char}

/-- Blanks around a text do not matter. -/
theorem ofText_surrounded (cs : List Char) (hfront : ∀ c ∈ front, isBlank c = true)
    (hback : ∀ c ∈ back, isBlank c = true) :
    ofText (String.ofList (front ++ cs ++ back)) = ofText (String.ofList cs) := by
  unfold ofText
  simp only [String.toList_ofList]
  rw [Text.trim_append_right _ hback, Text.trim_append_left _ hfront]

/-- One amount of seconds sums up to its count. -/
theorem totalSeconds_second (d : Decimal) : totalSeconds [⟨d, .second⟩] = d.toBinary64 false := by
  have hrounded := d.toBinary64_isRounded false
  have hsign : ∀ e, d.toBinary64 false ≠ .finite true 0 e :=
    fun e he => Bool.noConfusion (Decimal.toBinary64_sign he)
  have hscaled : d.toBinary64 false * Binary64.ofInt 1 = d.toBinary64 false :=
    hrounded.mul_ofInt_one
  calc totalSeconds [⟨d, .second⟩] = .zero + d.toBinary64 false * Binary64.ofInt 1 := rfl
    _ = d.toBinary64 false := by rw [hscaled, hrounded.zero_add hsign]

theorem ofText_figure (hf : f.WellFormed) :
    ofText (String.ofList f.text) = (ofSeconds? (f.decimal.toBinary64 false)).getD zero := by
  have htrim : Text.trim isBlank f.text = f.text :=
    Text.trim_eq_self fun c hc => (hf.plain c hc).1
  -- a figure is a number, so that no quantities make it up
  have hamounts : amounts? f.text = none := by
    rw [Option.eq_none_iff_forall_ne_some]
    intro amounts hsome
    obtain ⟨parts, hparts, _⟩ := amounts?_eq_some_iff.mp hsome
    have hnone := hparts.ofHeader?_eq_none
    rw [hf.ofHeader?_text] at hnone
    cases hnone
  unfold ofText
  simp only [String.toList_ofList, htrim, ofNumeral?, hf.ofHeader?_text, Option.bind_some,
    ofAmounts?, hamounts, Option.bind_none, Option.getD_none]
  cases ofSeconds? (f.decimal.toBinary64 false) <;> rfl

theorem ofText_figure_second (hf : f.WellFormed) :
    ofText (String.ofList (f.text ++ ['s'])) =
      (ofSeconds? (f.decimal.toBinary64 false)).getD zero := by
  have hmade : MadeUpOf (String.ofList (f.text ++ ['s'])).toList [⟨f, .second⟩] := by
    rw [String.toList_ofList]
    exact ⟨List.cons_ne_nil _ _, List.forall_mem_singleton.mpr hf, List.append_nil _⟩
  have htotal : totalSeconds ([⟨f, .second⟩].map Quantity.amount) = f.decimal.toBinary64 false :=
    totalSeconds_second f.decimal
  rw [hmade.ofText_eq, htotal]

/-- A figure with more seconds before its point than any duration has is out of range. -/
theorem ofSeconds?_figure_eq_none (h : maxSeconds < Numeral.rowValue decimalDigit? f.whole) :
    ofSeconds? (f.decimal.toBinary64 false) = none := by
  have hwhole : ((maxSeconds + 1 : ℕ) : ℚ) ≤ Numeral.rowValue decimalDigit? f.whole := by
    exact_mod_cast h
  exact ofSeconds?_of_reaches
    (Decimal.toBinary64_reaches (by decide) (hwhole.trans f.whole_le_decimal))

end Readings

/-- A figure is the same duration with the letter for seconds and without it, whatever its length
and script and whatever blanks stand around it: the number that it is read as, if that is in the
range of durations, and no time if it has more whole seconds than any duration. -/
theorem bare_figure_is_seconds {f : Figure} {front back : List Char} (hf : f.WellFormed)
    (hfront : ∀ c ∈ front, isBlank c = true) (hback : ∀ c ∈ back, isBlank c = true) :
    ofText (String.ofList (front ++ f.text ++ back)) =
        ofText (String.ofList (front ++ (f.text ++ ['s']) ++ back)) ∧
      ofText (String.ofList (front ++ f.text ++ back)) =
        (ofSeconds? (f.decimal.toBinary64 false)).getD zero ∧
      (maxSeconds < Numeral.rowValue decimalDigit? f.whole →
        ofText (String.ofList (front ++ f.text ++ back)) = zero ∧
          ofText (String.ofList (front ++ (f.text ++ ['s']) ++ back)) = zero) := by
  rw [ofText_surrounded _ hfront hback, ofText_surrounded _ hfront hback, ofText_figure hf,
    ofText_figure_second hf]
  refine ⟨rfl, rfl, fun h => ?_⟩
  rw [ofSeconds?_figure_eq_none h]
  exact ⟨rfl, rfl⟩

/-- Twelve and a half in Arabic digits. -/
def twelveAndHalf : Figure :=
  ⟨['\u0661', '\u0662'], some ['\u0665']⟩

theorem twelveAndHalf_wellFormed : twelveAndHalf.WellFormed where
  whole := ⟨List.cons_ne_nil _ _, List.forall_mem_cons.mpr ⟨by decide,
    List.forall_mem_singleton.mpr (by decide)⟩⟩
  places row hrow := Option.some.inj hrow ▸
    ⟨List.cons_ne_nil _ _, List.forall_mem_singleton.mpr (by decide)⟩

/-- A space in front and an ideographic one behind are passed over. Four hundred nines are beyond
the double-precision numbers as well. -/
theorem twelveAndHalf_seconds :
    ofText " \u0661\u0662.\u0665\u3000" = ⟨12500000⟩ ∧
      ofText " \u0661\u0662.\u0665s\u3000" = ⟨12500000⟩ ∧
      ofText (String.ofList (List.replicate 400 '9')) = zero ∧
      ofText (String.ofList (List.replicate 400 '9' ++ ['s'])) = zero := by
  have hspace : ∀ c ∈ [' '], isBlank c = true := List.forall_mem_singleton.mpr (by decide)
  have hwide : ∀ c ∈ ['\u3000'], isBlank c = true := List.forall_mem_singleton.mpr (by decide)
  have hnothing : ∀ c ∈ ([] : List Char), isBlank c = true := nofun
  have hseconds : ofSeconds? (twelveAndHalf.decimal.toBinary64 false) = some ⟨12500000⟩ := by
    decide +kernel
  have hnine : ∀ c ∈ List.replicate 400 '9', (decimalDigit? c).isSome = true :=
    List.forall_mem_replicate.mpr (.inr (by decide))
  have hnines : Figure.WellFormed ⟨List.replicate 400 '9', none⟩ :=
    ⟨⟨List.cons_ne_nil _ _, hnine⟩, nofun⟩
  obtain ⟨hsame, hbare, _⟩ := bare_figure_is_seconds twelveAndHalf_wellFormed hspace hwide
  obtain ⟨_, _, hlong⟩ := bare_figure_is_seconds hnines hnothing hnothing
  obtain ⟨hnumber, hunit⟩ := hlong (by decide +kernel)
  rw [hseconds] at hbare
  simp only [Figure.text, Figure.part, List.nil_append, List.append_nil] at hnumber hunit
  exact ⟨hbare, hsame.symm.trans hbare, hnumber, hunit⟩

end Duration
end ClaimCheck
