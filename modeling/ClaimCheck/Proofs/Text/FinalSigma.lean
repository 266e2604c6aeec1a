import ClaimCheck.Text.FinalSigma
/-!
Where the place of a letter matters to its small letter and where it does not. Only a capital sigma
has two small letters, so a text without a small sigma is the small form of the same texts whether
the place of each letter is looked at or not.
-/
namespace ClaimCheck.Text

/-- The small letter of a capital sigma that does not end a word. -/
def smallSigma : Char := Char.ofNat 0x3c3

theorem lowerChar_capitalSigma : lowerChar capitalSigma = [smallSigma] := by decide +kernel

theorem lowerAfter_cons_of_ne {c : Char} (h : c ≠ capitalSigma) (before cs : List Char) :
    lowerAfter before (c :: cs) = lowerChar c ++ lowerAfter (c :: before) cs := by
  have hplain : (c = capitalSigma && meetsCase before && !meetsCase cs) = false := by
    simp only [h, decide_false, Bool.false_and]
  simp only [lowerAfter, hplain, Bool.false_eq_true, if_false]

theorem sigma_of_lowerAfter (before cs : List Char) :
    finalSigma ∈ lowerAfter before (capitalSigma :: cs) ∨
      smallSigma ∈ lowerAfter before (capitalSigma :: cs) := by
  rw [lowerAfter]
  split
  · exact .inl (List.mem_append_left _ List.mem_cons_self)
  · rw [lowerChar_capitalSigma]
    exact .inr (List.mem_append_left _ List.mem_cons_self)

theorem lowerAfter_eq_iff {cs small : List Char} (hsmall : smallSigma ∉ small)
    (hfinal : finalSigma ∉ small) (before : List Char) :
    lowerAfter before cs = small ↔ lower cs = small := by
  induction cs generalizing before small with
  | nil => rfl
  | cons c cs ih =>
      by_cases hsigma : c = capitalSigma
      · -- a capital sigma leaves one of the small ones, whatever stands around it
        subst hsigma
        constructor
        · intro h
          rcases sigma_of_lowerAfter before cs with hmem | hmem
          · exact absurd (h ▸ hmem) hfinal
          · exact absurd (h ▸ hmem) hsmall
        · intro h
          rw [lower, List.flatMap_cons, lowerChar_capitalSigma] at h
          exact absurd (h ▸ List.mem_append_left _ List.mem_cons_self) hsmall
      · rw [lowerAfter_cons_of_ne hsigma, lower, List.flatMap_cons, ← lower]
        constructor
        · rintro rfl
          rw [List.mem_append, not_or] at hsmall hfinal
          rw [(ih hsmall.2 hfinal.2 _).mp rfl]
        · rintro rfl
          rw [List.mem_append, not_or] at hsmall hfinal
          rw [(ih hsmall.2 hfinal.2 _).mpr rfl]

/-- A text without small sigmas has the same small form in context as letter by letter. -/
theorem lowerInContext_eq_iff {s small : String} (hsmall : smallSigma ∉ small.toList)
    (hfinal : finalSigma ∉ small.toList) :
    lowerInContext s.toList = small.toList ↔ lowercase s = small := by
  rw [lowerInContext, lowerAfter_eq_iff hsmall hfinal, lowercase, ← String.toList_inj,
    String.toList_ofList]

theorem lowerInContext_eq_iff_of_ascii {cs small : List Char} (h : ∀ c ∈ small, c.toNat < 128) :
    lowerInContext cs = small ↔ lower cs = small :=
  lowerAfter_eq_iff (fun hmem => absurd (h _ hmem) (by decide))
    (fun hmem => absurd (h _ hmem) (by decide)) []

end ClaimCheck.Text
