import ClaimCheck.Proofs.Number.Numeral
/-!
Figures: digits of any script, perhaps with a point and more digits behind it. The longest figure
at the start of a text is found by looking for digits alone, and as a whole text a figure is the
number that its digits stand for.
-/
namespace ClaimCheck.Numeral
open Text (decimalDigit? isBlank)

namespace Figure

/-- There are digits before the point, and behind it if there is one. -/
structure WellFormed (f : Figure) : Prop where
  whole : IsRow decimalDigit? f.whole
  places : ∀ row, f.places = some row → IsRow decimalDigit? row

/-- The number that the digits stand for. -/
def decimal (f : Figure) : Decimal :=
  let values := (f.places.getD []).filterMap decimalDigit?
  ⟨valueOf (rowValue decimalDigit? f.whole) values, -(values.length : Int)⟩

end Figure

section Rows
variable {cs row rest : List Char}

theorem span_row (h : ∀ c ∈ row, (decimalDigit? c).isSome = true)
    (hrest : ∀ c ∈ rest.head?, decimalDigit? c = none) :
    (row ++ rest).span isDigit = (row, rest) := by
  have hstop : rest.takeWhile isDigit = [] ∧ rest.dropWhile isDigit = rest := by
    cases rest with
    | nil => exact ⟨rfl, rfl⟩
    | cons c rest =>
        have hc : ¬ isDigit c = true := by
          rw [isDigit, hrest c rfl]
          exact nofun
        exact ⟨List.takeWhile_cons_of_neg hc, List.dropWhile_cons_of_neg hc⟩
  have hrow : ∀ c ∈ row, isDigit c = true := h
  rw [List.span_eq_takeWhile_dropWhile, List.takeWhile_append_of_pos hrow,
    List.dropWhile_append_of_pos hrow, hstop.1, hstop.2, List.append_nil]

theorem eq_append_of_span (h : cs.span isDigit = (row, rest)) :
    cs = row ++ rest ∧ (∀ c ∈ row, (decimalDigit? c).isSome = true) ∧
      ∀ c ∈ rest.head?, decimalDigit? c = none := by
  rw [List.span_eq_takeWhile_dropWhile, Prod.mk.injEq] at h
  obtain ⟨rfl, rfl⟩ := h
  refine ⟨List.takeWhile_append_dropWhile.symm, List.all_eq_true.mp List.all_takeWhile, ?_⟩
  intro c hc
  have hstop := List.head?_dropWhile_not isDigit cs
  rw [hc] at hstop
  exact Option.not_isSome_iff_eq_none.mp (Bool.eq_false_iff.mp hstop)

/-- The values of the digits at the start of a text are those of its longest row. -/
theorem spanDigits_eq_span (cs : List Char) :
    spanDigits decimalDigit? cs =
      ((cs.span isDigit).1.filterMap decimalDigit?, (cs.span isDigit).2) := by
  have hspan : cs.span isDigit = ((cs.span isDigit).1, (cs.span isDigit).2) := rfl
  obtain ⟨hcs, hrow, hrest⟩ := eq_append_of_span hspan
  have hdigits := spanDigits_append hrow hrest
  rwa [← hcs] at hdigits

end Rows

namespace Figure
variable {f : Figure} {cs rest : List Char}

theorem WellFormed.exists_cons (h : f.WellFormed) :
    ∃ d ds, f.text = d :: ds ∧ (decimalDigit? d).isSome = true := by
  obtain ⟨d, ds, hwhole, hd⟩ := h.whole.exists_cons
  exact ⟨d, ds ++ f.part, by rw [text, hwhole, List.cons_append], hd⟩

theorem WellFormed.plain (h : f.WellFormed) : ∀ c ∈ f.text, isBlank c = false ∧ c ≠ '_' := by
  have hdigits : ∀ {row : List Char}, IsRow decimalDigit? row →
      ∀ c ∈ row, isBlank c = false ∧ c ≠ '_' := by
    intro row hrow c hc
    have hplain := isPlain_of_digit (hrow.digits c hc)
    exact ⟨hplain.blank, hplain.joint⟩
  intro c hc
  rcases List.mem_append.mp hc with hc | hc
  · exact hdigits h.whole c hc
  · unfold part at hc
    split at hc
    next => cases hc
    next row hplaces =>
      rcases List.mem_cons.mp hc with rfl | hc
      · exact ⟨by decide, by decide⟩
      · exact hdigits (h.places row hplaces) c hc

/-- The digits at the start of a figure are the ones before its point. -/
theorem WellFormed.span_text (h : f.WellFormed) (hrest : ∀ c ∈ rest.head?, decimalDigit? c = none) :
    (f.text ++ rest).span isDigit = (f.whole, f.part ++ rest) := by
  rw [text, List.append_assoc]
  refine span_row h.whole.digits ?_
  unfold part
  split
  next => exact hrest
  next => exact fun c hc => Option.some.inj hc ▸ by decide

/-- A figure is taken as a whole where neither a digit nor a point follows it. -/
theorem WellFormed.take?_append (h : f.WellFormed)
    (hrest : ∀ c ∈ rest.head?, decimalDigit? c = none ∧ c ≠ '.') :
    take? (f.text ++ rest) = some (f, rest) := by
  have hdigit : ∀ c ∈ rest.head?, decimalDigit? c = none := fun c hc => (hrest c hc).1
  have hspan := h.span_text hdigit
  obtain ⟨whole, places⟩ := f
  obtain ⟨d, ds, rfl, _⟩ := h.whole.exists_cons
  cases places with
  | none =>
      unfold take?
      rw [hspan]
      split
      next heq => cases heq
      next heq =>
        have hpoint : rest.head? = some '.' := congrArg List.head? (congrArg Prod.snd heq)
        exact absurd rfl (hrest _ hpoint).2
      next heq => cases heq; rfl
  | some row =>
      have hplaces := span_row (h.places row rfl).digits hdigit
      obtain ⟨e, es, rfl, _⟩ := (h.places row rfl).exists_cons
      rw [List.cons_append] at hplaces
      simp only [take?, hspan, part, List.cons_append, hplaces]

theorem eq_append_of_take? (h : take? cs = some (f, rest)) :
    f.WellFormed ∧ cs = f.text ++ rest := by
  unfold take? at h
  split at h
  · cases h
  next whole after hne hspan =>
    obtain ⟨rfl, hwhole, _⟩ := eq_append_of_span hspan
    split at h
    next =>
      cases h
      exact ⟨⟨⟨hne, hwhole⟩, nofun⟩, by rw [text, part, List.append_nil]⟩
    next places rest' hne' hspan' =>
      obtain ⟨rfl, hplaces, _⟩ := eq_append_of_span hspan'
      cases h
      refine ⟨⟨⟨hne, hwhole⟩, fun row hrow => Option.some.inj hrow ▸ ⟨hne', hplaces⟩⟩, ?_⟩
      rw [text, part, List.append_assoc, List.cons_append]
  next whole rest' hne _ hspan =>
    obtain ⟨rfl, hwhole, _⟩ := eq_append_of_span hspan
    cases h
    exact ⟨⟨⟨hne, hwhole⟩, nofun⟩, by rw [text, part, List.append_nil]⟩

theorem WellFormed.decimal?_text (h : f.WellFormed) :
    decimal? decimalDigit? f.text = some f.decimal := by
  have hspan : spanDigits decimalDigit? f.text = (f.whole.filterMap decimalDigit?, f.part) := by
    have hspan : (f.text ++ []).span isDigit = (f.whole, f.part ++ []) := h.span_text nofun
    rw [List.append_nil, List.append_nil] at hspan
    rw [spanDigits_eq_span, hspan]
  have hwhole : (f.whole.filterMap decimalDigit?).isEmpty = false :=
    List.isEmpty_eq_false_iff.mpr h.whole.values_ne_nil
  obtain ⟨whole, places⟩ := f
  cases places with
  | none =>
      simp only [decimal?, hspan, part, hwhole, Bool.false_and, Bool.false_eq_true, if_false]
      rfl
  | some row =>
      have hplaces : spanDigits decimalDigit? (row ++ []) = (row.filterMap decimalDigit?, []) :=
        spanDigits_append (h.places row rfl).digits nofun
      rw [List.append_nil] at hplaces
      simp only [decimal?, hspan, part, hplaces, hwhole, Bool.false_and, Bool.false_eq_true,
        if_false]
      rfl

/-- A figure with a letter behind it is no number, unless the letter is the mark of a power of
ten. -/
theorem WellFormed.decimal?_append {c : Char} (h : f.WellFormed) (hdigit : decimalDigit? c = none)
    (hpoint : c ≠ '.') (hmark : c ≠ 'e' ∧ c ≠ 'E') :
    decimal? decimalDigit? (f.text ++ c :: rest) = none := by
  have hstop : ∀ d ∈ (c :: rest).head?, decimalDigit? d = none :=
    fun d hd => Option.some.inj hd ▸ hdigit
  obtain ⟨whole, places⟩ := f
  cases places with
  | none =>
      rw [text, part, List.append_nil]
      exact decimal?_row_append h.whole hdigit hpoint hmark
  | some row =>
      have hspan : spanDigits decimalDigit? (text ⟨whole, some row⟩ ++ c :: rest) =
          (whole.filterMap decimalDigit?, '.' :: (row ++ c :: rest)) := by
        rw [spanDigits_eq_span, h.span_text hstop]
        rfl
      have hplaces := spanDigits_append (h.places row rfl).digits hstop
      have hwhole : (whole.filterMap decimalDigit?).isEmpty = false :=
        List.isEmpty_eq_false_iff.mpr h.whole.values_ne_nil
      have hno : ¬ (c = 'e' ∨ c = 'E') := not_or.mpr hmark
      simp only [decimal?, hspan, hplaces, hwhole, Bool.false_and, Bool.false_eq_true, if_false,
        hno]

/-- As a header a figure is the number that its digits stand for. -/
theorem WellFormed.ofHeader?_text (h : f.WellFormed) :
    ofHeader? f.text = some (f.decimal.toBinary64 false) := by
  have hdecimal := h.decimal?_text
  obtain ⟨d, ds, htext, hd⟩ := h.exists_cons
  rw [ofHeader?_eq_binary64? h.plain]
  rw [htext] at hdecimal ⊢
  rw [binary64?_of_digit (isPlain_of_digit hd), hdecimal]
  rfl

end Figure
end ClaimCheck.Numeral
