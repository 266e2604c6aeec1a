import ClaimCheck.Proofs.Template.Scan

namespace ClaimCheck.Template
open Text (isIdentifier)

/-- The text that a template gives: the values go in where the placeholders stand, and all other
characters are kept. -/
inductive Filled (bindings : Bindings) : List Char → List Char → Prop
  | nil : Filled bindings [] []
  | value (name : List Char) (value : String) {rest out : List Char}
      (h : isIdentifier name = true)
      (hvalue : bindings.get? (String.ofList name) = some value)
      (hrest : Filled bindings rest out) :
      Filled bindings (written name ++ rest) (value.toList ++ out)
  | kept (c : Char) {rest out : List Char} (h : ¬ StartsPlaceholder (c :: rest))
      (hrest : Filled bindings rest out) : Filled bindings (c :: rest) (c :: out)

variable {bindings : Bindings}

theorem Filled.nil_inv {out : List Char} (h : Filled bindings [] out) : out = [] := by
  generalize hcs : ([] : List Char) = cs at h
  cases h with
  | nil => rfl
  | value name value _ _ _ => cases hcs
  | kept c _ _ => cases hcs

theorem written_append_inj {name other rest more : List Char} (h : isIdentifier name = true)
    (hother : isIdentifier other = true) (heq : written name ++ rest = written other ++ more) :
    name = other ∧ rest = more := by
  have hname : name = other := (written_prefix_iff h hother more).mp ⟨rest, heq⟩
  subst hname
  exact ⟨rfl, List.append_cancel_left heq⟩

theorem Filled.value_inv {name rest out : List Char} (hname : isIdentifier name = true)
    (h : Filled bindings (written name ++ rest) out) :
    ∃ value after, bindings.get? (String.ofList name) = some value ∧
      Filled bindings rest after ∧ out = value.toList ++ after := by
  -- the text has to be a variable before the way it was filled can be taken apart
  generalize hcs : written name ++ rest = cs at h
  cases h with
  | nil => cases hcs
  | value other value hother hvalue hrest =>
      obtain ⟨rfl, rfl⟩ := written_append_inj hname hother hcs
      exact ⟨value, _, hvalue, hrest, rfl⟩
  | kept c hnot hrest => exact absurd ⟨name, rest, hname, hcs.symm⟩ hnot

theorem Filled.kept_inv {c : Char} {rest out : List Char} (hnot : ¬ StartsPlaceholder (c :: rest))
    (h : Filled bindings (c :: rest) out) :
    ∃ after, Filled bindings rest after ∧ out = c :: after := by
  generalize hcs : c :: rest = cs at h
  cases h with
  | nil => cases hcs
  | value name value hname hvalue hrest => exact absurd ⟨name, _, hname, hcs⟩ hnot
  | kept c _ hrest =>
      cases hcs
      exact ⟨_, hrest, rfl⟩

theorem Filled.unique {cs out other : List Char} (h : Filled bindings cs out)
    (hother : Filled bindings cs other) : out = other := by
  induction h generalizing other with
  | nil => exact hother.nil_inv.symm
  | value name value hname hvalue hrest ih =>
      obtain ⟨value', after, hvalue', hafter, rfl⟩ := hother.value_inv hname
      cases hvalue.symm.trans hvalue'
      rw [ih hafter]
  | kept c hnot hrest ih =>
      obtain ⟨after, hafter, rfl⟩ := hother.kept_inv hnot
      rw [ih hafter]

theorem Pieces.filled {cs : List Char} {segments : List Segment} (h : Pieces cs segments)
    (hvalues : ∀ name, .placeholder name ∈ segments →
      (bindings.get? (String.ofList name)).isSome = true) :
    Filled bindings cs (segments.flatMap (·.fill bindings)) := by
  induction h with
  | nil => exact .nil
  | placeholder name hname hrest ih =>
      obtain ⟨value, hvalue⟩ := Option.isSome_iff_exists.mp (hvalues name List.mem_cons_self)
      rw [List.flatMap_cons, Segment.fill, hvalue, Option.getD_some]
      exact .value name value hname hvalue
        (ih fun other hother => hvalues other (List.mem_cons_of_mem _ hother))
  | literal c hnot hrest ih =>
      exact .kept c hnot (ih fun other hother => hvalues other (List.mem_cons_of_mem _ hother))

theorem missing_eq_nil_iff {template : String} :
    missing template bindings = [] ↔
      ∀ name, Mentions template name → (bindings.get? name).isSome = true := by
  rw [missing, List.filter_eq_nil_iff]
  simp only [mem_placeholders_iff, Option.isNone_iff_eq_none, ← ne_eq, Option.isSome_iff_ne_none]

theorem mem_missing_iff {template name : String} :
    name ∈ missing template bindings ↔ Mentions template name ∧ bindings.get? name = none := by
  rw [missing, List.mem_filter, mem_placeholders_iff, Option.isNone_iff_eq_none]

theorem missing_pairwise (template : String) (bindings : Bindings) :
    (missing template bindings).Pairwise (· < ·) :=
  (Text.ascending_pairwise _).filter _

theorem render_of_mentions (bindings : Bindings) {template : String}
    (h : ∀ name, Mentions template name → (bindings.get? name).isSome = true) :
    ∃ s, render template bindings = .ok s ∧ Filled bindings template.toList s.toList := by
  have hfilled : Filled bindings template.toList ((segments template).flatMap (·.fill bindings)) :=
    (scan_pieces template.toList).filled fun name hmem => h _ (placeholder_mem_iff.mp hmem)
  refine ⟨_, by rw [render, missing_eq_nil_iff.mpr h], ?_⟩
  rw [String.toList_ofList]
  exact hfilled

theorem render_eq_ok_iff {template s : String} :
    render template bindings = .ok s ↔
      (∀ name, Mentions template name → (bindings.get? name).isSome = true) ∧
        Filled bindings template.toList s.toList := by
  constructor
  · intro h
    have hvalues : ∀ name, Mentions template name → (bindings.get? name).isSome = true := by
      rw [← missing_eq_nil_iff]
      unfold render at h
      split at h
      next hmissing => exact hmissing
      next => cases h
    obtain ⟨other, hother, hfilled⟩ := render_of_mentions bindings hvalues
    cases hother.symm.trans h
    exact ⟨hvalues, hfilled⟩
  · rintro ⟨hvalues, hfilled⟩
    obtain ⟨other, hother, hfilled'⟩ := render_of_mentions bindings hvalues
    rw [hother, String.toList_inj.mp (hfilled.unique hfilled')]

theorem render_eq_error_iff {template : String} {names : List String} :
    render template bindings = .error names ↔
      missing template bindings = names ∧ names ≠ [] := by
  rw [render]
  constructor
  · intro h
    split at h
    next => cases h
    next hnames => cases h; exact ⟨rfl, hnames⟩
  · rintro ⟨rfl, hnames⟩
    split
    next hnil => exact absurd hnil hnames
    next => rfl

/-- The value of a name that the template mentions stands whole in the text. -/
theorem Filled.value_infix {cs out name : List Char} {value : String}
    (h : Filled bindings cs out) (hname : isIdentifier name = true)
    (hvalue : bindings.get? (String.ofList name) = some value) (hwhole : written name <:+: cs) :
    value.toList <:+: out := by
  induction h with
  | nil => cases List.infix_nil.mp hwhole
  | @value other here rest out hother hhere hrest ih =>
      rcases (written_infix_iff hname hother rest).mp hwhole with rfl | hafter
      · cases hvalue.symm.trans hhere
        exact (List.prefix_append _ _).isInfix
      · exact (ih hafter).trans (List.suffix_append _ _).isInfix
  | @kept c rest out hnot hrest ih =>
      rcases List.infix_cons_iff.mp hwhole with ⟨more, hmore⟩ | hafter
      · exact absurd ⟨name, more, hname, hmore.symm⟩ hnot
      · exact (ih hafter).trans (List.suffix_cons _ _).isInfix

end ClaimCheck.Template
