import ClaimCheck.Proofs.Duration.Whole
import ClaimCheck.Proofs.Number.Reach
/-!
Sums of whole hours, minutes and seconds. The text of such a sum stands for exactly its seconds as
long as a duration can be that long, and for no time at all beyond, however the sum is put together
and however large its parts are: what goes beyond a bound is never rounded back below it.
-/
namespace ClaimCheck.Duration
open Binary64 (Reaches)
open Text (decimalDigit?)

section Parts
variable {p : Part} {parts : List Part} {c : ℕ}

theorem TimeUnit.wholeSeconds_pos {u : TimeUnit} (h : u ≠ .millisecond) : 0 < u.wholeSeconds := by
  cases u with
  | millisecond => exact absurd rfl h
  | _ => decide

theorem Part.seconds_reaches (hunit : p.unit ≠ .millisecond) (hc : c ≤ 2 ^ 53)
    (h : c ≤ p.wholeSeconds) : p.amount.seconds.Reaches c := by
  have hpos := TimeUnit.wholeSeconds_pos hunit
  -- the count itself may be beyond `2 ^ 53`, where only the bound is kept
  have hcount : (p.amount.count.toBinary64 false).Reaches
      (min (Numeral.rowValue decimalDigit? p.row) (2 ^ 53)) := by
    refine Decimal.toBinary64_reaches (min_le_right _ _) ?_
    rw [amount, zpow_zero, mul_one]
    exact_mod_cast min_le_left _ _
  refine hcount.mul_whole (TimeUnit.seconds_isWhole hunit) hpos hc ?_
  rcases min_choice (Numeral.rowValue decimalDigit? p.row) (2 ^ 53) with hmin | hmin
  · rwa [hmin]
  · rw [hmin]
    exact hc.trans (Nat.le_mul_of_pos_right _ hpos)

/-- Adding the seconds of parts to a sum reaches what the exact sum reaches. -/
theorem foldl_seconds_reaches {total : Binary64} {a : ℕ} (htotal : total.Reaches a)
    (hunits : ∀ p ∈ parts, p.unit ≠ .millisecond) (hc : c ≤ 2 ^ 53)
    (h : c ≤ a + (parts.map Part.wholeSeconds).sum) :
    ((parts.map Part.amount).foldl (fun total amount => total + amount.seconds) total).Reaches
      c := by
  induction parts generalizing total a with
  | nil => exact htotal.mono h
  | cons p parts ih =>
      obtain ⟨hp, hparts⟩ := List.forall_mem_cons.mp hunits
      simp only [List.map_cons, List.sum_cons] at h ⊢
      have hseconds : p.amount.seconds.Reaches (min p.wholeSeconds (2 ^ 53)) :=
        Part.seconds_reaches hp (min_le_right _ _) (min_le_left _ _)
      have hsum := htotal.add hseconds (c := min (a + p.wholeSeconds) (2 ^ 53))
        (min_le_right _ _) (by omega)
      exact ih hsum hparts (by omega)

theorem totalSeconds_reaches (hunits : ∀ p ∈ parts, p.unit ≠ .millisecond) (hc : c ≤ 2 ^ 53)
    (h : c ≤ (parts.map Part.wholeSeconds).sum) :
    (totalSeconds (parts.map Part.amount)).Reaches c :=
  foldl_seconds_reaches (Binary64.reaches_zero_iff.mpr rfl) hunits hc (by rwa [Nat.zero_add])

end Parts

/-- A number of seconds beyond the longest duration is none. -/
theorem ofSeconds?_of_reaches {x : Binary64} (h : x.Reaches (maxSeconds + 1)) :
    ofSeconds? x = none := by
  have hsign := Binary64.reaches_zero_iff.mp (h.mono (Nat.zero_le _))
  have hpart := Binary64.fraction_isNonNegative hsign
  obtain ⟨n, f, hn, hmillion⟩ : ∃ n f, n ≠ 0 ∧
      Binary64.ofInt microsPerSecond = .finite false n f := ⟨_, _, by decide, rfl⟩
  have hmicros := hmillion ▸ Binary64.isNonNegative_mul f hpart hn
  rw [Option.eq_none_iff_forall_ne_some]
  intro d hd
  simp only [ofSeconds?, bind, Option.bind_eq_some_iff] at hd
  obtain ⟨whole, hwhole, part, hpart, hd⟩ := hd
  have hlong := h.le_trunc (Nat.succ_pos _) hwhole
  have hrest := Binary64.roundHalfEven?_nonneg hmicros hpart
  unfold ofMicros? at hd
  split at hd
  next hrange =>
    unfold maxSeconds at hlong
    unfold maxMicros microsPerDay microsPerSecond at hrange
    omega
  next => cases hd

/-- The text of whole hours, minutes and seconds stands for exactly the sum of their seconds, or
for no time if no duration is that long. -/
theorem ofText_eq_of_parts {s : String} {parts : List Part} (htext : s.toList = partsText parts)
    (hne : parts ≠ []) (hunits : ∀ p ∈ parts, p.unit ≠ .millisecond) :
    ofText s = if (parts.map Part.wholeSeconds).sum ≤ maxSeconds then
      ⟨(parts.map Part.wholeSeconds).sum * microsPerSecond⟩ else zero := by
  split
  next hsum => exact ofText_partsText htext hne hunits hsum
  next hsum =>
    have hmade : MadeUpOf s.toList (parts.map Part.quantity) := htext ▸ madeUpOf_partsText hne
    have hamounts : (parts.map Part.quantity).map Quantity.amount = parts.map Part.amount :=
      List.map_map
    have hreaches := totalSeconds_reaches hunits (c := maxSeconds + 1) (by decide) (by omega)
    rw [hmade.ofText_eq, hamounts, ofSeconds?_of_reaches hreaches]
    rfl

/-- A number of hours, minutes or seconds as it may be written: perhaps zeros, then the number in
decimal and the letter of its unit. -/
structure WholeAmount where
  zeros : ℕ
  count : ℕ
  unit : TimeUnit
  whole : unit ≠ .millisecond

namespace WholeAmount

def text (a : WholeAmount) : String :=
  String.ofList (List.replicate a.zeros '0') ++ toString a.count ++ String.ofList a.unit.letters

/-- How many seconds an amount stands for, without any rounding. -/
def seconds (a : WholeAmount) : ℕ :=
  a.count * a.unit.wholeSeconds

/-- The text of amounts one after another. -/
def textOf (amounts : List WholeAmount) : String :=
  String.join (amounts.map text)

def total (amounts : List WholeAmount) : ℕ :=
  (amounts.map seconds).sum

/-- The digits of an amount, the zeros in front among them. -/
def row (a : WholeAmount) : List Char :=
  List.replicate a.zeros '0' ++ Nat.toDigits 10 a.count

theorem isDigit_of_mem_row (a : WholeAmount) : ∀ c ∈ a.row, c.isDigit = true := by
  intro c hc
  rcases List.mem_append.mp hc with hc | hc
  · rw [List.eq_of_mem_replicate hc]
    rfl
  · exact Numeral.isDigit_of_mem_toDigits hc

def part (a : WholeAmount) : Part where
  row := a.row
  unit := a.unit
  digits :=
    { ne_nil := List.append_ne_nil_of_right_ne_nil _ Nat.toDigits_ne_nil
      digits := fun c hc => by
        rw [Text.decimalDigit?_of_isDigit (a.isDigit_of_mem_row c hc)]
        rfl }

theorem rowValue_row (a : WholeAmount) : Numeral.rowValue decimalDigit? a.row = a.count := by
  rw [Numeral.rowValue, Numeral.valueOf_filterMap a.isDigit_of_mem_row, row,
    Nat.ofDigitChars_append, Nat.ofDigitChars_replicate_zero, Nat.mul_zero,
    Nat.ofDigitChars_ten_toDigits]

theorem toList_text (a : WholeAmount) : a.text.toList = a.part.text := by
  simp only [text, String.toList_append, String.toList_ofList]
  rw [show (toString a.count).toList = Nat.toDigits 10 a.count from Nat.toList_repr]
  rfl

theorem toList_textOf (amounts : List WholeAmount) :
    (textOf amounts).toList = partsText (amounts.map part) := by
  rw [textOf, String.toList_join, List.flatMap_map, partsText, List.flatMap_map]
  exact List.flatMap_congr fun a _ => a.toList_text

theorem sum_part (amounts : List WholeAmount) :
    ((amounts.map part).map Part.wholeSeconds).sum = total amounts := by
  rw [List.map_map, total]
  refine congrArg List.sum (List.map_congr_left fun a _ => ?_)
  exact congrArg (· * a.unit.wholeSeconds) a.rowValue_row

theorem ofText_textOf {amounts : List WholeAmount} (hne : amounts ≠ []) :
    ofText (textOf amounts) =
      if total amounts ≤ maxSeconds then ⟨total amounts * microsPerSecond⟩ else zero := by
  have hunits : ∀ p ∈ amounts.map part, p.unit ≠ .millisecond :=
    List.forall_mem_map.mpr fun a _ => a.whole
  rw [ofText_eq_of_parts (toList_textOf amounts) (mt List.map_eq_nil_iff.mp hne) hunits, sum_part]

end WholeAmount

open WholeAmount in
/-- Hours, minutes and seconds one after another stand for exactly their sum, or for no time if
that is longer than any duration. So neither their order nor how the sum is divided among them
matters. -/
theorem whole_units_exact_or_zero {amounts : List WholeAmount} (hne : amounts ≠ []) :
    ofText (textOf amounts) =
        (if total amounts ≤ maxSeconds then ⟨total amounts * microsPerSecond⟩ else zero) ∧
      (∀ others : List WholeAmount, others.Perm amounts →
        ofText (textOf others) = ofText (textOf amounts)) ∧
      ∀ others : List WholeAmount, others ≠ [] → total others = total amounts →
        ofText (textOf others) = ofText (textOf amounts) := by
  have hsplit : ∀ others : List WholeAmount, others ≠ [] → total others = total amounts →
      ofText (textOf others) = ofText (textOf amounts) := by
    intro others hothers htotal
    rw [ofText_textOf hothers, ofText_textOf hne, htotal]
  refine ⟨ofText_textOf hne, ?_, hsplit⟩
  intro others hperm
  refine hsplit others ?_ (hperm.map WholeAmount.seconds).sum_nat
  rintro rfl
  exact hne hperm.nil_eq.symm

/-- Amounts that come to the longest whole duration. -/
def longestAmounts : List WholeAmount :=
  [⟨0, 23999999999, .hour, by decide⟩, ⟨0, 59, .minute, by decide⟩, ⟨1, 59, .second, by decide⟩]

/-- One second more, and nothing is left. -/
theorem longest_of_whole_units :
    longestAmounts ≠ [] ∧ ofText "23999999999h59m059s" = ⟨86399999999999000000⟩ ∧
      ofText "23999999999h59m059s1s" = zero := by
  have hne : longestAmounts ≠ [] := List.cons_ne_nil _ _
  have hmore : longestAmounts ++ [⟨0, 1, .second, by decide⟩] ≠ [] := List.cons_ne_nil _ _
  refine ⟨hne, ?_, ?_⟩
  · exact (whole_units_exact_or_zero hne).1
  · exact (whole_units_exact_or_zero hmore).1

end ClaimCheck.Duration
