import ClaimCheck.Proofs.Duration.Quantity

namespace ClaimCheck.Duration
open Numeral (IsRow rowValue)
open Text (decimalDigit?)

/-- A row of digits with the unit behind it. -/
structure Part where
  row : List Char
  unit : TimeUnit
  digits : IsRow decimalDigit? row

namespace Part

def text (p : Part) : List Char :=
  p.row ++ p.unit.letters

def amount (p : Part) : Amount :=
  ⟨⟨rowValue decimalDigit? p.row, 0⟩, p.unit⟩

/-- A part is a quantity without a point. -/
def quantity (p : Part) : Quantity :=
  ⟨⟨p.row, none⟩, p.unit⟩

theorem quantity_text (p : Part) : p.quantity.text = p.text := by
  rw [Quantity.text, quantity, Numeral.Figure.text, Numeral.Figure.part, List.append_nil, text]

theorem quantity_wellFormed (p : Part) : p.quantity.WellFormed :=
  ⟨p.digits, nofun⟩

end Part

/-- The text of parts one after another. -/
def partsText (parts : List Part) : List Char :=
  parts.flatMap Part.text

/-- The text of parts is made up of them as quantities. -/
theorem madeUpOf_partsText {parts : List Part} (hne : parts ≠ []) :
    MadeUpOf (partsText parts) (parts.map Part.quantity) where
  ne_nil h := hne (List.map_eq_nil_iff.mp h)
  wellFormed := List.forall_mem_map.mpr fun p _ => p.quantity_wellFormed
  text := by
    rw [quantitiesText, partsText, List.flatMap_map]
    exact List.flatMap_congr fun p _ => p.quantity_text

/-- How many seconds a unit has, if it has a whole number of them. -/
def TimeUnit.wholeSeconds : TimeUnit → Nat
  | .hour => 3600
  | .minute => 60
  | .second => 1
  | .millisecond => 0

theorem TimeUnit.seconds_isWhole {u : TimeUnit} (h : u ≠ .millisecond) :
    u.seconds.IsWhole u.wholeSeconds := by
  cases u with
  | hour => exact Binary64.ofInt_isWhole (by decide)
  | minute => exact Binary64.ofInt_isWhole (by decide)
  | second => exact Binary64.ofInt_isWhole (by decide)
  | millisecond => exact absurd rfl h

def Part.wholeSeconds (p : Part) : Nat :=
  rowValue decimalDigit? p.row * p.unit.wholeSeconds

theorem Part.seconds_isWhole {p : Part} (hunit : p.unit ≠ .millisecond)
    (h : p.wholeSeconds ≤ 2 ^ 53) : p.amount.seconds.IsWhole p.wholeSeconds := by
  have hpos : 0 < p.unit.wholeSeconds := by
    cases hu : p.unit with
    | millisecond => exact absurd hu hunit
    | _ => decide
  have hrow : rowValue decimalDigit? p.row ≤ 2 ^ 53 := (Nat.le_mul_of_pos_right _ hpos).trans h
  have hcount : (p.amount.count.toBinary64 false).IsWhole (rowValue decimalDigit? p.row) :=
    Decimal.toBinary64_isWhole false hrow
  have hproduct := hcount.mul (TimeUnit.seconds_isWhole hunit) (by exact_mod_cast h)
  rwa [← Nat.cast_mul] at hproduct

/-- Adding the seconds of parts to a whole sum gives a whole sum, as long as that stays within
`2 ^ 53`. -/
theorem foldl_seconds_isWhole {parts : List Part} {total : Binary64} {sum : Nat}
    (htotal : total.IsWhole sum) (hunits : ∀ p ∈ parts, p.unit ≠ .millisecond)
    (h : sum + (parts.map Part.wholeSeconds).sum ≤ 2 ^ 53) :
    ((parts.map Part.amount).foldl (fun total amount => total + amount.seconds) total).IsWhole
      ((sum + (parts.map Part.wholeSeconds).sum : Nat) : Int) := by
  induction parts generalizing total sum with
  | nil => exact htotal
  | cons p parts ih =>
      obtain ⟨hp, hparts⟩ := List.forall_mem_cons.mp hunits
      simp only [List.map_cons, List.sum_cons, ← Nat.add_assoc] at h ⊢
      have hseconds := Part.seconds_isWhole hp (by omega)
      have hsum := htotal.add hseconds (by omega)
      rw [← Nat.cast_add] at hsum
      exact ih hsum hparts h

theorem totalSeconds_isWhole {parts : List Part} (hunits : ∀ p ∈ parts, p.unit ≠ .millisecond)
    (h : (parts.map Part.wholeSeconds).sum ≤ 2 ^ 53) :
    (totalSeconds (parts.map Part.amount)).IsWhole (parts.map Part.wholeSeconds).sum := by
  have hzero : Binary64.zero.IsWhole (0 : Nat) := Binary64.ofInt_isWhole (by decide)
  have hall := foldl_seconds_isWhole hzero hunits (by rwa [Nat.zero_add])
  rwa [Nat.zero_add] at hall

/-- A whole number of seconds is a duration if it is in range, and is so without rounding. -/
theorem ofSeconds?_of_isWhole {x : Binary64} {n : Int} (hx : x.IsWhole n)
    (hmin : minMicros ≤ n * microsPerSecond) (hmax : n * microsPerSecond ≤ maxMicros) :
    ofSeconds? x = some ⟨n * microsPerSecond⟩ := by
  have hpart := hx.fraction.mul (Binary64.ofInt_isWhole (n := microsPerSecond) (by decide))
    (by rw [zero_mul]; decide)
  rw [zero_mul] at hpart
  simp only [ofSeconds?, hx.trunc?, hpart.roundHalfEven?, bind, Option.bind, Int.add_zero]
  exact if_pos ⟨hmin, hmax⟩

/-- The longest duration in whole seconds. -/
def maxSeconds : Nat := 86399999999999

/-- The text of whole hours, minutes and seconds stands for the sum of their seconds, where that
is not longer than a duration can be. -/
theorem ofText_partsText {s : String} {parts : List Part} (htext : s.toList = partsText parts)
    (hne : parts ≠ []) (hunits : ∀ p ∈ parts, p.unit ≠ .millisecond)
    (hsum : (parts.map Part.wholeSeconds).sum ≤ maxSeconds) :
    ofText s = ⟨(parts.map Part.wholeSeconds).sum * microsPerSecond⟩ := by
  have hmade : MadeUpOf s.toList (parts.map Part.quantity) := htext ▸ madeUpOf_partsText hne
  have hamounts : (parts.map Part.quantity).map Quantity.amount = parts.map Part.amount :=
    List.map_map
  have htotal := totalSeconds_isWhole hunits (hsum.trans (by decide))
  have hduration := ofSeconds?_of_isWhole htotal
    (by unfold minMicros microsPerDay microsPerSecond; omega)
    (by unfold maxSeconds at hsum; unfold maxMicros microsPerDay microsPerSecond; omega)
  rw [hmade.ofText_eq, hamounts, hduration]
  rfl

/-- Hours, minutes and seconds in decimal, each with its letter. -/
def clockText (hours minutes seconds : Nat) : String :=
  toString hours ++ "h" ++ toString minutes ++ "m" ++ toString seconds ++ "s"

theorem ofText_clockText {hours minutes seconds : Nat}
    (h : 3600 * hours + 60 * minutes + seconds ≤ maxSeconds) :
    ofText (clockText hours minutes seconds) =
      ⟨((3600 * hours + 60 * minutes + seconds : Nat) : Int) * microsPerSecond⟩ := by
  let parts : List Part := [⟨_, .hour, Numeral.isRow_toDigits hours⟩,
    ⟨_, .minute, Numeral.isRow_toDigits minutes⟩, ⟨_, .second, Numeral.isRow_toDigits seconds⟩]
  have hdigits : ∀ n : Nat, (toString n).toList = Nat.toDigits 10 n := fun n => Nat.toList_repr
  have htext : (clockText hours minutes seconds).toList = partsText parts := by
    simp only [clockText, String.toList_append, hdigits]
    simp only [partsText, parts, List.flatMap_cons, List.flatMap_nil, Part.text, TimeUnit.letters,
      List.append_assoc, List.append_nil]
    rfl
  have hsum : (parts.map Part.wholeSeconds).sum = 3600 * hours + 60 * minutes + seconds := by
    simp only [parts, List.map_cons, List.map_nil, List.sum_cons, List.sum_nil, Part.wholeSeconds,
      TimeUnit.wholeSeconds, Numeral.rowValue_toDigits]
    omega
  have hunits : ∀ p ∈ parts, p.unit ≠ .millisecond := by
    simp [parts]
  have hread := ofText_partsText htext (List.cons_ne_nil _ _) hunits (hsum.trans_le h)
  rwa [hsum] at hread

end ClaimCheck.Duration
