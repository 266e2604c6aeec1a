import ClaimCheck.Proofs.Template.Scan
/-!
Where placeholders stand in a template, position by position. No two of them share a character,
so it is the same to look for them everywhere at once as to scan the template from its start.
-/
namespace ClaimCheck.Template
open Text (isIdentifier)

/-- A placeholder starts at a position of a text. -/
def OccursAt (cs : List Char) (i : Nat) (name : List Char) : Prop :=
  isIdentifier name = true ∧ written name <+: cs.drop i

/-- A position within a placeholder, behind its opening brace. -/
def Inside (cs : List Char) (i : Nat) : Prop :=
  ∃ j name, OccursAt cs j name ∧ j < i ∧ i < j + (written name).length

theorem written_length (name : List Char) : (written name).length = name.length + 2 := by
  simp only [written, List.length_cons, List.length_append, List.length_nil]

section Occurrence
variable {cs front rest name other : List Char} {i j : Nat}

theorem OccursAt.unique (h : OccursAt cs i name) (hother : OccursAt cs i other) :
    name = other := by
  obtain ⟨more, hmore⟩ := hother.2
  have hprefix := h.2
  rw [← hmore] at hprefix
  exact (written_prefix_iff h.1 hother.1 more).mp hprefix

/-- The only opening brace of a placeholder is its first character. -/
theorem ne_open_of_inside (h : OccursAt cs i name) (hlt : i < j)
    (hbound : j < i + (written name).length) : cs[j]? ≠ some '{' := by
  obtain ⟨more, hmore⟩ := h.2
  obtain ⟨k, rfl⟩ : ∃ k, j = i + (k + 1) := ⟨j - i - 1, by omega⟩
  have hk : k < (name ++ ['}']).length := by
    rw [written, List.length_cons] at hbound
    omega
  rw [← List.getElem?_drop, ← hmore, written, List.cons_append, List.getElem?_cons_succ,
    List.getElem?_append_left hk]
  intro hopen
  rcases List.mem_append.mp (List.mem_of_getElem? hopen) with hmem | hmem
  · exact not_mem_open h.1 hmem
  · cases List.mem_singleton.mp hmem

theorem OccursAt.opens (h : OccursAt cs i name) : cs[i]? = some '{' := by
  obtain ⟨more, hmore⟩ := h.2
  have hdrop : (cs.drop i)[0]? = some '{' := by rw [← hmore]; rfl
  rwa [List.getElem?_drop, Nat.add_zero] at hdrop

/-- Of two placeholders the later one starts where the earlier one has ended. -/
theorem OccursAt.disjoint (h : OccursAt cs i name) (hother : OccursAt cs j other)
    (hlt : i < j) : i + (written name).length ≤ j := by
  apply Nat.le_of_not_lt
  intro hoverlap
  exact ne_open_of_inside h hlt hoverlap hother.opens

theorem OccursAt.lt_length (h : OccursAt cs i name) : i < cs.length :=
  (List.getElem?_eq_some_iff.mp h.opens).1

theorem OccursAt.not_inside (h : OccursAt cs i name) : ¬ Inside cs i := by
  rintro ⟨j, other, hother, hlt, hbound⟩
  exact absurd (hother.disjoint h hlt) (Nat.not_le_of_lt hbound)

theorem occursAt_append_iff :
    OccursAt (front ++ rest) (front.length + i) name ↔ OccursAt rest i name := by
  rw [OccursAt, OccursAt, List.drop_length_add_append]

theorem startsPlaceholder_iff : StartsPlaceholder cs ↔ ∃ name, OccursAt cs 0 name := by
  constructor
  · rintro ⟨name, rest, hname, rfl⟩
    exact ⟨name, hname, List.prefix_append _ _⟩
  · rintro ⟨name, hname, rest, hrest⟩
    exact ⟨name, rest, hname, hrest.symm⟩

theorem infix_iff_occursAt (hname : isIdentifier name = true) :
    written name <:+: cs ↔ ∃ i, OccursAt cs i name := by
  constructor
  · rintro ⟨front, rest, rfl⟩
    refine ⟨front.length, hname, ?_⟩
    rw [List.append_assoc, List.drop_left]
    exact List.prefix_append _ _
  · rintro ⟨i, -, hprefix⟩
    exact hprefix.isInfix.trans (List.drop_suffix i cs).isInfix

end Occurrence

theorem mentions_iff_occursAt {template name : String} :
    Mentions template name ↔ ∃ i, OccursAt template.toList i name.toList := by
  constructor
  · rintro ⟨hname, hinfix⟩
    exact (infix_iff_occursAt hname).mp hinfix
  · rintro ⟨i, h⟩
    exact ⟨h.1, (infix_iff_occursAt h.1).mpr ⟨i, h⟩⟩

theorem source_placeholder (name : List Char) : (Segment.placeholder name).source = written name :=
  rfl

/-- The scan has a piece for a placeholder at each position where one starts, and at no other. -/
theorem Pieces.occursAt_iff {cs : List Char} {segments : List Segment} (h : Pieces cs segments)
    {i : Nat} {name : List Char} :
    OccursAt cs i name ↔ ∃ before after, segments = before ++ .placeholder name :: after ∧
      (before.flatMap Segment.source).length = i := by
  induction h generalizing i with
  | nil =>
      constructor
      · intro hname
        exact absurd hname.lt_length (Nat.not_lt_zero i)
      · rintro ⟨before, after, hnil, _⟩
        cases before <;> cases hnil
  | @placeholder other rest segments hother hrest ih =>
      have hstarts : OccursAt (written other ++ rest) 0 other :=
        ⟨hother, List.prefix_append _ _⟩
      constructor
      · intro hname
        rcases Nat.eq_zero_or_pos i with rfl | hpos
        · cases hstarts.unique hname
          exact ⟨[], segments, rfl, rfl⟩
        · have hends := hstarts.disjoint hname hpos
          rw [Nat.zero_add] at hends
          obtain ⟨k, rfl⟩ := Nat.exists_eq_add_of_le hends
          obtain ⟨before, after, rfl, rfl⟩ := ih.mp (occursAt_append_iff.mp hname)
          refine ⟨.placeholder other :: before, after, rfl, ?_⟩
          rw [List.flatMap_cons, List.length_append, source_placeholder]
      · rintro ⟨before, after, hsegments, rfl⟩
        cases before with
        | nil =>
            cases hsegments
            exact hstarts
        | cons segment before =>
            cases hsegments
            rw [List.flatMap_cons, List.length_append, source_placeholder, occursAt_append_iff]
            exact ih.mpr ⟨before, after, rfl, rfl⟩
  | @literal c rest segments hnot hrest ih =>
      have hcons : ∀ {k : Nat}, OccursAt ([c] ++ rest) (k + 1) name ↔ OccursAt rest k name := by
        intro k
        rw [Nat.add_comm k 1]
        exact occursAt_append_iff
      constructor
      · intro hname
        cases i with
        | zero => exact absurd (startsPlaceholder_iff.mpr ⟨name, hname⟩) hnot
        | succ k =>
            obtain ⟨before, after, rfl, rfl⟩ := ih.mp (hcons.mp hname)
            exact ⟨.literal c :: before, after, rfl, rfl⟩
      · rintro ⟨before, after, hsegments, rfl⟩
        cases before with
        | nil => cases hsegments
        | cons segment before =>
            cases hsegments
            exact hcons.mpr (ih.mpr ⟨before, after, rfl, rfl⟩)

end ClaimCheck.Template
