import ClaimCheck.Duration.Amounts
import ClaimCheck.Proofs.Number.Figure

namespace ClaimCheck.Duration
open Text (decimalDigit? isBlank)
open Numeral (Figure)

namespace TimeUnit

/-- What the first letter of a unit is not: a digit, a point, a blank, or part of a numeral. -/
theorem letters_cons (u : TimeUnit) :
    ∃ c cs, u.letters = c :: cs ∧ decimalDigit? c = none ∧ c ≠ '.' ∧ c ≠ 'e' ∧ c ≠ 'E' := by
  cases u with
  | hour => exact ⟨'h', [], rfl, by decide, by decide, by decide, by decide⟩
  | minute => exact ⟨'m', [], rfl, by decide, by decide, by decide, by decide⟩
  | second => exact ⟨'s', [], rfl, by decide, by decide, by decide, by decide⟩
  | millisecond => exact ⟨'m', ['s'], rfl, by decide, by decide, by decide, by decide⟩

theorem plain_of_mem_letters (u : TimeUnit) : ∀ c ∈ u.letters, isBlank c = false ∧ c ≠ '_' := by
  have h : u.letters.all (fun c => isBlank c = false ∧ c ≠ '_') = true := by
    cases u <;> rfl
  exact fun c hc => of_decide_eq_true (List.all_eq_true.mp h c hc)

/-- A unit is read as itself unless an `s` makes another one of it. -/
theorem take?_letters (u : TimeUnit) {rest : List Char} (h : ∀ c ∈ rest.head?, c ≠ 's') :
    TimeUnit.take? (u.letters ++ rest) = some (u, rest) := by
  cases u with
  | hour => rfl
  | second => rfl
  | millisecond => rfl
  | minute =>
      cases rest with
      | nil => rfl
      | cons c rest =>
          have hc : c ≠ 's' := h c rfl
          simp only [letters, List.singleton_append]
          unfold TimeUnit.take?
          split
          next heq => exact absurd (List.cons.inj (List.cons.inj heq).2).1 hc
          next heq => cases heq
          next heq => cases heq; rfl
          next heq => cases heq
          next hminute _ => exact absurd rfl (hminute (c :: rest))

theorem eq_append_of_take? {u : TimeUnit} {cs rest : List Char}
    (h : TimeUnit.take? cs = some (u, rest)) : cs = u.letters ++ rest := by
  unfold TimeUnit.take? at h
  split at h <;> cases h <;> rfl

end TimeUnit

namespace Quantity

def amount (q : Quantity) : Amount :=
  ⟨q.figure.decimal, q.unit⟩

def WellFormed (q : Quantity) : Prop :=
  q.figure.WellFormed

end Quantity

/-- Quantities make up a text: there is at least one, and each has a figure of digits. -/
structure MadeUpOf (cs : List Char) (parts : List Quantity) : Prop where
  ne_nil : parts ≠ []
  wellFormed : ∀ q ∈ parts, q.WellFormed
  text : quantitiesText parts = cs

namespace Quantity
variable {q : Quantity} {cs rest : List Char}

theorem figure_take?_append (h : q.WellFormed) :
    Figure.take? (q.text ++ rest) = some (q.figure, q.unit.letters ++ rest) := by
  obtain ⟨c, cs, hletters, hdigit, hpoint, _⟩ := q.unit.letters_cons
  rw [text, List.append_assoc]
  refine Figure.WellFormed.take?_append h fun d hd => ?_
  rw [hletters] at hd
  exact Option.some.inj hd ▸ ⟨hdigit, hpoint⟩

theorem take?_append (h : q.WellFormed) (hrest : ∀ c ∈ rest.head?, c ≠ 's') :
    take? (q.text ++ rest) = some (q, rest) := by
  simp only [take?, figure_take?_append h, q.unit.take?_letters hrest, bind, Option.bind]

theorem eq_append_of_take? (h : take? cs = some (q, rest)) :
    q.WellFormed ∧ cs = q.text ++ rest := by
  simp only [take?, bind, Option.bind_eq_some_iff] at h
  obtain ⟨⟨figure, after⟩, hfigure, ⟨unit, behind⟩, hunit, h⟩ := h
  cases h
  obtain ⟨hwf, rfl⟩ := Figure.eq_append_of_take? hfigure
  have hafter : after = unit.letters ++ behind := TimeUnit.eq_append_of_take? hunit
  refine ⟨hwf, ?_⟩
  rw [hafter, text, List.append_assoc]

theorem exists_cons (h : q.WellFormed) :
    ∃ d ds, q.text = d :: ds ∧ (decimalDigit? d).isSome = true := by
  obtain ⟨d, ds, hfigure, hd⟩ := Figure.WellFormed.exists_cons h
  exact ⟨d, ds ++ q.unit.letters, by rw [text, hfigure, List.cons_append], hd⟩

end Quantity

section Counts
variable {cs rest row : List Char} {figure : Figure}

theorem spanDigits_of_span (hne : row = [] → False) (h : cs.span Numeral.isDigit = (row, rest)) :
    ∃ v vs, row.filterMap decimalDigit? = v :: vs ∧
      Numeral.spanDigits decimalDigit? cs = (v :: vs, rest) := by
  obtain ⟨_, hrow, _⟩ := Numeral.eq_append_of_span h
  have hvalues : Numeral.IsRow decimalDigit? row := ⟨hne, hrow⟩
  obtain ⟨v, vs, hcons⟩ := List.exists_cons_of_ne_nil hvalues.values_ne_nil
  exact ⟨v, vs, hcons, by rw [Numeral.spanDigits_eq_span, h, hcons]⟩

theorem takeCount?_eq_none (h : Figure.take? cs = none) : takeCount? cs = none := by
  unfold Figure.take? at h
  split at h
  next rest hspan => simp only [takeCount?, Numeral.spanDigits_eq_span, hspan, List.filterMap_nil]
  next => split at h <;> cases h
  next => cases h

/-- Where a figure is taken, so is the count that it stands for, except that a count is not taken
in front of a point. -/
theorem takeCount?_of_take? (h : Figure.take? cs = some (figure, rest)) :
    takeCount? cs = some (figure.decimal, rest) ∨
      takeCount? cs = none ∧ ∃ after, rest = '.' :: after := by
  unfold Figure.take? at h
  split at h
  · cases h
  next whole after hne hspan =>
    obtain ⟨v, vs, hvalues, hdigits⟩ := spanDigits_of_span hne hspan
    split at h
    next rest hspan' =>
      cases h
      refine .inr ⟨?_, after, rfl⟩
      simp only [takeCount?, hdigits, Numeral.spanDigits_eq_span after, hspan', List.filterMap_nil]
    next places behind hne' hspan' =>
      obtain ⟨w, ws, hplaces, hdigits'⟩ := spanDigits_of_span hne' hspan'
      cases h
      left
      simp only [takeCount?, hdigits, hdigits', Figure.decimal, Numeral.rowValue, hvalues, hplaces,
        Option.getD_some]
  next whole behind hne hpoint hspan =>
    obtain ⟨v, vs, hvalues, hdigits⟩ := spanDigits_of_span hne hspan
    cases h
    left
    unfold takeCount?
    rw [hdigits]
    split
    next heq => cases heq
    next after _ heq => exact absurd (congrArg Prod.snd heq) (hpoint after)
    next heq =>
      cases heq
      simp only [Figure.decimal, Numeral.rowValue, hvalues, Option.getD_none, List.filterMap_nil]
      rfl

end Counts

/-- An amount is read where a quantity stands, and it is the one that the digits of the quantity
stand for. -/
theorem Amount.take?_eq (cs : List Char) :
    Amount.take? cs = (Quantity.take? cs).map fun (q, rest) => (q.amount, rest) := by
  unfold Amount.take? Quantity.take?
  cases hfigure : Figure.take? cs with
  | none => rw [takeCount?_eq_none hfigure]; rfl
  | some taken =>
      obtain ⟨figure, rest⟩ := taken
      rcases takeCount?_of_take? hfigure with hcount | ⟨hcount, after, rfl⟩
      · rw [hcount]
        simp only [bind, Option.bind]
        cases TimeUnit.take? rest <;> rfl
      -- no unit begins with a point
      · rw [hcount]
        rfl

theorem quantitiesText_cons (q : Quantity) (parts : List Quantity) :
    quantitiesText (q :: parts) = q.text ++ quantitiesText parts := rfl

theorem quantitiesText_ne_nil {q : Quantity} (h : q.WellFormed) (parts : List Quantity) :
    quantitiesText (q :: parts) ≠ [] := by
  obtain ⟨d, ds, htext, _⟩ := Quantity.exists_cons h
  rw [quantitiesText_cons, htext]
  exact List.cons_ne_nil _ _

theorem head?_quantitiesText {parts : List Quantity} (h : ∀ q ∈ parts, q.WellFormed) :
    ∀ c ∈ (quantitiesText parts).head?, c ≠ 's' := by
  cases parts with
  | nil => nofun
  | cons q parts =>
      obtain ⟨d, ds, htext, hdigit⟩ := Quantity.exists_cons (h q List.mem_cons_self)
      intro c hc
      rw [quantitiesText_cons, htext] at hc
      cases hc
      rintro rfl
      exact absurd hdigit (by decide)

/-- The first of well-formed quantities is the one that a text of them starts with. -/
theorem take?_quantitiesText {q : Quantity} {parts : List Quantity}
    (h : ∀ r ∈ q :: parts, r.WellFormed) :
    Quantity.take? (quantitiesText (q :: parts)) = some (q, quantitiesText parts) := by
  obtain ⟨hq, hparts⟩ := List.forall_mem_cons.mp h
  exact Quantity.take?_append hq (head?_quantitiesText hparts)

theorem quantitiesText_inj {parts others : List Quantity} (hparts : ∀ q ∈ parts, q.WellFormed)
    (hothers : ∀ q ∈ others, q.WellFormed) (h : quantitiesText parts = quantitiesText others) :
    parts = others := by
  induction parts generalizing others with
  | nil =>
      cases others with
      | nil => rfl
      | cons r others =>
          exact absurd h.symm (quantitiesText_ne_nil (hothers r List.mem_cons_self) others)
  | cons q parts ih =>
      cases others with
      | nil => exact absurd h (quantitiesText_ne_nil (hparts q List.mem_cons_self) parts)
      | cons r others =>
          have hsame := take?_quantitiesText hparts
          rw [h, take?_quantitiesText hothers, Option.some.injEq, Prod.mk.injEq] at hsame
          obtain ⟨rfl, hrest⟩ := hsame
          rw [ih (List.forall_mem_cons.mp hparts).2 (List.forall_mem_cons.mp hothers).2 hrest.symm]

/-- A text is made up of quantities in one way only. -/
theorem MadeUpOf.unique {cs : List Char} {parts others : List Quantity} (h : MadeUpOf cs parts)
    (hothers : MadeUpOf cs others) : parts = others :=
  quantitiesText_inj h.wellFormed hothers.wellFormed (h.text.trans hothers.text.symm)

theorem amountsWithin_of_take? {bound : Nat} {cs rest : List Char} {q : Quantity} (hne : cs ≠ [])
    (h : Quantity.take? cs = some (q, rest)) :
    amountsWithin (bound + 1) cs = (amountsWithin bound rest).map (q.amount :: ·) := by
  obtain ⟨c, cs, rfl⟩ := List.exists_cons_of_ne_nil hne
  have hamount : Amount.take? (c :: cs) = some (q.amount, rest) := by
    rw [Amount.take?_eq, h]
    rfl
  simp only [amountsWithin, hamount]

theorem amountsWithin_quantitiesText {parts : List Quantity} {bound : Nat}
    (h : ∀ q ∈ parts, q.WellFormed) (hbound : parts.length ≤ bound) :
    amountsWithin bound (quantitiesText parts) = some (parts.map Quantity.amount) := by
  induction parts generalizing bound with
  | nil => cases bound <;> rfl
  | cons q parts ih =>
      cases bound with
      | zero => exact absurd hbound (Nat.not_succ_le_zero _)
      | succ bound =>
          obtain ⟨hq, hparts⟩ := List.forall_mem_cons.mp h
          rw [amountsWithin_of_take? (quantitiesText_ne_nil hq parts) (take?_quantitiesText h),
            ih hparts (Nat.le_of_succ_le_succ hbound)]
          rfl

theorem length_le_quantitiesText {parts : List Quantity} (h : ∀ q ∈ parts, q.WellFormed) :
    parts.length ≤ (quantitiesText parts).length := by
  induction parts with
  | nil => exact Nat.zero_le _
  | cons q parts ih =>
      obtain ⟨hq, hparts⟩ := List.forall_mem_cons.mp h
      have hrest := ih hparts
      obtain ⟨d, ds, htext, _⟩ := Quantity.exists_cons hq
      rw [quantitiesText_cons, htext, List.length_append, List.length_cons, List.length_cons]
      omega

theorem exists_of_amountsWithin {bound : Nat} {cs : List Char} {amounts : List Amount}
    (h : amountsWithin bound cs = some amounts) :
    ∃ parts : List Quantity, (∀ q ∈ parts, q.WellFormed) ∧ quantitiesText parts = cs ∧
      parts.map Quantity.amount = amounts := by
  induction bound generalizing cs amounts with
  | zero =>
      cases cs with
      | nil => cases h; exact ⟨[], nofun, rfl, rfl⟩
      | cons c cs => cases h
  | succ bound ih =>
      cases cs with
      | nil => cases h; exact ⟨[], nofun, rfl, rfl⟩
      | cons c cs =>
          cases htake : Quantity.take? (c :: cs) with
          | none =>
              have hamount : Amount.take? (c :: cs) = none := by rw [Amount.take?_eq, htake]; rfl
              simp only [amountsWithin, hamount, reduceCtorEq] at h
          | some taken =>
              obtain ⟨q, rest⟩ := taken
              obtain ⟨hq, hcs⟩ := Quantity.eq_append_of_take? htake
              rw [amountsWithin_of_take? (List.cons_ne_nil _ _) htake, Option.map_eq_some_iff] at h
              obtain ⟨after, hafter, rfl⟩ := h
              obtain ⟨parts, hparts, rfl, rfl⟩ := ih hafter
              exact ⟨q :: parts, List.forall_mem_cons.mpr ⟨hq, hparts⟩, hcs.symm, rfl⟩

/-- The amounts that are read from a text are those of the quantities that make it up. -/
theorem amounts?_eq_some_iff {cs : List Char} {amounts : List Amount} :
    amounts? cs = some amounts ↔
      ∃ parts, MadeUpOf cs parts ∧ parts.map Quantity.amount = amounts := by
  constructor
  · intro h
    unfold amounts? at h
    split at h
    next => cases h
    next found hsome =>
      obtain ⟨parts, hparts, htext, rfl⟩ := exists_of_amountsWithin h
      refine ⟨parts, ⟨?_, hparts, htext⟩, rfl⟩
      rintro rfl
      exact hsome h
  · rintro ⟨parts, ⟨hne, hparts, rfl⟩, rfl⟩
    obtain ⟨q, rest, rfl⟩ := List.exists_cons_of_ne_nil hne
    rw [amounts?, amountsWithin_quantitiesText hparts (length_le_quantitiesText hparts)]
    rfl

namespace MadeUpOf
variable {cs : List Char} {parts : List Quantity}

theorem plain (h : MadeUpOf cs parts) : ∀ c ∈ cs, isBlank c = false ∧ c ≠ '_' := by
  intro c hc
  rw [← h.text] at hc
  obtain ⟨q, hq, hc⟩ := List.mem_flatMap.mp hc
  rcases List.mem_append.mp hc with hc | hc
  · exact Figure.WellFormed.plain (h.wellFormed q hq) c hc
  · exact q.unit.plain_of_mem_letters c hc

/-- A text of quantities is not a bare number: a unit stands behind its first figure. -/
theorem ofHeader?_eq_none (h : MadeUpOf cs parts) : Numeral.ofHeader? cs = none := by
  rw [Numeral.ofHeader?_eq_binary64? h.plain]
  obtain ⟨hne, hparts, rfl⟩ := h
  obtain ⟨q, rest, rfl⟩ := List.exists_cons_of_ne_nil hne
  have hq : q.figure.WellFormed := hparts q List.mem_cons_self
  obtain ⟨c, cs, hletters, hdigit, hpoint, hmark⟩ := q.unit.letters_cons
  have htext : quantitiesText (q :: rest) = q.figure.text ++ c :: (cs ++ quantitiesText rest) := by
    rw [quantitiesText_cons, Quantity.text, hletters, List.append_assoc, List.cons_append]
  have hdecimal : Numeral.decimal? decimalDigit?
      (q.figure.text ++ c :: (cs ++ quantitiesText rest)) = none :=
    hq.decimal?_append hdigit hpoint hmark
  -- the first digit keeps the figure from being a sign or a word; behind the figure stands the unit
  obtain ⟨d, ds, hfigure, hd⟩ := hq.exists_cons
  rw [hfigure, List.cons_append] at hdecimal
  rw [htext, hfigure, List.cons_append,
    Numeral.binary64?_of_digit (Numeral.isPlain_of_digit hd), hdecimal]
  rfl

/-- A text of quantities stands for their seconds, if these are a duration. -/
theorem ofText_eq {s : String} (h : MadeUpOf s.toList parts) :
    ofText s = (ofSeconds? (totalSeconds (parts.map Quantity.amount))).getD zero := by
  have htrim : Text.trim isBlank s.toList = s.toList :=
    Text.trim_eq_self fun c hc => (h.plain c hc).1
  have hamounts : amounts? s.toList = some (parts.map Quantity.amount) :=
    amounts?_eq_some_iff.mpr ⟨parts, h, rfl⟩
  simp only [ofText, htrim, ofNumeral?, h.ofHeader?_eq_none, Option.bind_none, ofAmounts?, hamounts,
    Option.bind_some]

end MadeUpOf
end ClaimCheck.Duration
