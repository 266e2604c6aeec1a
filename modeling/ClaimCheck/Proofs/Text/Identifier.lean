import ClaimCheck.Text.Identifier

namespace ClaimCheck.Text

/-- Every character of an identifier can stand inside one. -/
theorem continues_of_mem {name : List Char} (h : isIdentifier name = true) {c : Char}
    (hc : c ∈ name) : continuesIdentifier c = true := by
  cases name with
  | nil => cases hc
  | cons first rest =>
      rw [isIdentifier, Bool.and_eq_true, List.all_eq_true] at h
      rcases List.mem_cons.mp hc with rfl | hrest
      · rw [continuesIdentifier, h.1, Bool.true_or]
      · exact h.2 c hrest

/-- An identifier is taken whole where no character after it continues it. -/
theorem takeIdentifier?_append {name : List Char} (h : isIdentifier name = true) {stop : Char}
    (hstop : continuesIdentifier stop = false) (rest : List Char) :
    takeIdentifier? (name ++ stop :: rest) = some (name, stop :: rest) := by
  have hstop' : ¬ continuesIdentifier stop = true := by rw [hstop]; exact Bool.false_ne_true
  cases name with
  | nil => cases h
  | cons first more =>
      rw [isIdentifier, Bool.and_eq_true, List.all_eq_true] at h
      rw [List.cons_append, takeIdentifier?, if_pos h.1, List.takeWhile_append_of_pos h.2,
        List.dropWhile_append_of_pos h.2, List.takeWhile_cons_of_neg hstop',
        List.dropWhile_cons_of_neg hstop', List.append_nil]

theorem takeIdentifier?_eq_some {cs name rest : List Char}
    (h : takeIdentifier? cs = some (name, rest)) :
    isIdentifier name = true ∧ cs = name ++ rest := by
  cases cs with
  | nil => cases h
  | cons c cs =>
      rw [takeIdentifier?] at h
      split at h
      next hc =>
        cases h
        refine ⟨?_, ?_⟩
        · rw [isIdentifier, hc, Bool.true_and, List.all_takeWhile]
        · rw [List.cons_append, List.takeWhile_append_dropWhile]
      next => cases h

theorem mem_insertName {name other : String} {names : List String} :
    name ∈ insertName other names ↔ name = other ∨ name ∈ names := by
  induction names with
  | nil => rw [insertName, List.mem_singleton, List.mem_nil_iff, or_false]
  | cons first rest ih =>
      rw [insertName]
      split
      next h => rw [h, List.mem_cons, ← or_assoc, or_self]
      next =>
        split
        next => rw [List.mem_cons]
        next => rw [List.mem_cons, ih, List.mem_cons, or_left_comm]

/-- Ordering keeps every name and adds none. -/
theorem mem_ascending {name : String} {names : List String} :
    name ∈ ascending names ↔ name ∈ names := by
  induction names with
  | nil => rfl
  | cons first rest ih =>
      rw [ascending, List.foldr_cons, ← ascending, mem_insertName, ih, List.mem_cons]

theorem insertName_pairwise (name : String) {names : List String} (h : names.Pairwise (· < ·)) :
    (insertName name names).Pairwise (· < ·) := by
  induction names with
  | nil => exact List.pairwise_singleton _ _
  | cons other rest ih =>
      have hrest := List.pairwise_cons.mp h
      rw [insertName]
      split
      next => exact h
      next hne =>
        split
        next hlt =>
          refine List.pairwise_cons.mpr ⟨?_, h⟩
          intro later hlater
          rcases List.mem_cons.mp hlater with rfl | hlater
          · exact hlt
          · exact String.lt_trans hlt (hrest.1 later hlater)
        next hle =>
          have hlt : other < name := Std.lt_of_le_of_ne (String.not_lt.mp hle) (Ne.symm hne)
          refine List.pairwise_cons.mpr ⟨?_, ih hrest.2⟩
          intro later hlater
          rcases mem_insertName.mp hlater with rfl | hlater
          · exact hlt
          · exact hrest.1 later hlater

/-- Ordered names ascend strictly, so none of them is there twice. -/
theorem ascending_pairwise (names : List String) : (ascending names).Pairwise (· < ·) := by
  induction names with
  | nil => exact .nil
  | cons first rest ih =>
      rw [ascending, List.foldr_cons, ← ascending]
      exact insertName_pairwise first ih

/-- Ascending lists of the same names are the same. -/
theorem eq_of_ascending {names others : List String} (h : names.Pairwise (· < ·))
    (hothers : others.Pairwise (· < ·)) (hsame : ∀ name, name ∈ names ↔ name ∈ others) :
    names = others := by
  have hne : ∀ {a b : String}, a < b → a ≠ b := fun hlt heq => String.lt_irrefl _ (heq ▸ hlt)
  have hperm := (List.perm_ext_iff_of_nodup (h.imp hne) (hothers.imp hne)).mpr hsame
  exact hperm.eq_of_pairwise (fun a b _ _ hab hba => absurd (String.lt_trans hab hba)
    (String.lt_irrefl a)) h hothers

end ClaimCheck.Text
