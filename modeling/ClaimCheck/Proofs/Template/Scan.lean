import ClaimCheck.Template
import ClaimCheck.Proofs.Text.Identifier
/-!
The pieces of a template. A placeholder is read wherever one stands and nowhere else, although
the scan goes through the text once and never looks back.
-/
namespace ClaimCheck.Template
open Text (isIdentifier)

/-- The writing of a placeholder. -/
def written (name : List Char) : List Char :=
  '{' :: (name ++ ['}'])

def StartsPlaceholder (cs : List Char) : Prop :=
  ∃ name rest, isIdentifier name = true ∧ cs = written name ++ rest

/-- The pieces that a text consists of: every character stands for itself where no placeholder
starts. -/
inductive Pieces : List Char → List Segment → Prop
  | nil : Pieces [] []
  | placeholder (name : List Char) {rest : List Char} {segments : List Segment}
      (h : isIdentifier name = true) (hrest : Pieces rest segments) :
      Pieces (written name ++ rest) (.placeholder name :: segments)
  | literal (c : Char) {rest : List Char} {segments : List Segment}
      (h : ¬ StartsPlaceholder (c :: rest)) (hrest : Pieces rest segments) :
      Pieces (c :: rest) (.literal c :: segments)

/-- A template mentions a name: it is an identifier, and its placeholder stands somewhere. -/
def Mentions (template name : String) : Prop :=
  isIdentifier name.toList = true ∧ written name.toList <:+: template.toList

theorem not_continues_close : Text.continuesIdentifier '}' = false := by decide

theorem not_mem_open {name : List Char} (h : isIdentifier name = true) : '{' ∉ name := by
  intro hmem
  have hopen : Text.continuesIdentifier '{' = false := by decide
  rw [Text.continues_of_mem h hmem] at hopen
  cases hopen

theorem placeholderAfterBrace?_eq_some_iff {cs name : List Char} :
    placeholderAfterBrace? cs = some name ↔
      isIdentifier name = true ∧ ∃ rest, cs = name ++ '}' :: rest := by
  unfold placeholderAfterBrace?
  constructor
  · intro h
    split at h
    next taken rest htaken =>
      cases h
      obtain ⟨hname, hcs⟩ := Text.takeIdentifier?_eq_some htaken
      exact ⟨hname, rest, hcs⟩
    next => cases h
  · rintro ⟨hname, rest, rfl⟩
    rw [Text.takeIdentifier?_append hname not_continues_close]
    rfl

theorem scan_skip (skip : Nat) (cs : List Char) : scan skip cs = scan 0 (cs.drop skip) := by
  induction skip generalizing cs with
  | zero => rfl
  | succ skip ih =>
      cases cs with
      | nil => rfl
      | cons c cs => rw [scan, ih, List.drop_succ_cons]

theorem scan_placeholder {name : List Char} (h : isIdentifier name = true) (rest : List Char) :
    scan 0 (written name ++ rest) = .placeholder name :: scan 0 rest := by
  have hafter : placeholderAfterBrace? (name ++ ['}'] ++ rest) = some name := by
    rw [placeholderAfterBrace?_eq_some_iff]
    exact ⟨h, rest, by rw [List.append_assoc, List.singleton_append]⟩
  rw [written, List.cons_append, scan, if_pos rfl, hafter]
  simp only [List.cons.injEq, true_and]
  rw [scan_skip, ← List.length_singleton (a := '}'), ← List.length_append, List.drop_left]

theorem scan_literal {c : Char} {cs : List Char} (h : ¬ StartsPlaceholder (c :: cs)) :
    scan 0 (c :: cs) = .literal c :: scan 0 cs := by
  rw [scan]
  split
  next name hname =>
    split at hname
    next hopen =>
      obtain ⟨hidentifier, rest, rfl⟩ := placeholderAfterBrace?_eq_some_iff.mp hname
      refine absurd ⟨name, rest, hidentifier, ?_⟩ h
      rw [hopen, written, List.cons_append, List.append_assoc, List.singleton_append]
    next => cases hname
  next => rfl

theorem length_written_append (name rest : List Char) :
    rest.length < (written name ++ rest).length := by
  rw [written, List.cons_append, List.length_cons, List.length_append]
  omega

/-- The scan reads the pieces that a text consists of. -/
theorem scan_pieces (cs : List Char) : Pieces cs (scan 0 cs) := by
  -- by length, since a placeholder takes several characters at once
  induction hlength : cs.length using Nat.strongRecOn generalizing cs with
  | ind n ih =>
      subst hlength
      by_cases hstarts : StartsPlaceholder cs
      · obtain ⟨name, rest, hname, rfl⟩ := hstarts
        rw [scan_placeholder hname]
        exact .placeholder name hname (ih _ (length_written_append name rest) rest rfl)
      · cases cs with
        | nil => exact .nil
        | cons c rest =>
            rw [scan_literal hstarts]
            exact .literal c hstarts (ih _ (Nat.lt_succ_self rest.length) rest rfl)

theorem infix_append_iff {xs : List Char} (h : '{' ∉ xs) (ys rest : List Char) :
    '{' :: ys <:+: xs ++ rest ↔ '{' :: ys <:+: rest := by
  induction xs with
  | nil => rfl
  | cons x xs ih =>
      rw [List.mem_cons, not_or] at h
      rw [List.cons_append, List.infix_cons_iff, ih h.2, List.cons_prefix_cons]
      exact or_iff_right fun hx => h.1 hx.1

theorem written_prefix_iff {name other : List Char} (h : isIdentifier name = true)
    (hother : isIdentifier other = true) (rest : List Char) :
    written name <+: written other ++ rest ↔ name = other := by
  constructor
  · rintro ⟨more, hmore⟩
    have hname := Text.takeIdentifier?_append h not_continues_close more
    have hother := Text.takeIdentifier?_append hother not_continues_close rest
    rw [written, written, List.cons_append, List.cons_append, List.cons.injEq, List.append_assoc,
      List.append_assoc, List.singleton_append, List.singleton_append] at hmore
    rw [hmore.2, hother] at hname
    cases hname
    rfl
  · rintro rfl
    exact List.prefix_append _ _

/-- Behind a placeholder the next one can only start where it ends. -/
theorem written_infix_iff {name other : List Char} (h : isIdentifier name = true)
    (hother : isIdentifier other = true) (rest : List Char) :
    written name <:+: written other ++ rest ↔ name = other ∨ written name <:+: rest := by
  have hclose : '{' ∉ other ++ ['}'] := by
    rw [List.mem_append, List.mem_singleton, not_or]
    exact ⟨not_mem_open hother, by decide⟩
  have hsplit : written other ++ rest = '{' :: ((other ++ ['}']) ++ rest) := rfl
  rw [← written_prefix_iff h hother rest, hsplit, List.infix_cons_iff, written,
    infix_append_iff hclose]

/-- Every placeholder that stands in a text is one of its pieces. -/
theorem Pieces.mem_iff {cs : List Char} {segments : List Segment} (h : Pieces cs segments)
    {name : List Char} (hname : isIdentifier name = true) :
    .placeholder name ∈ segments ↔ written name <:+: cs := by
  induction h with
  | nil => exact ⟨nofun, fun hinfix => by cases List.infix_nil.mp hinfix⟩
  | placeholder other hother hrest ih =>
      rw [List.mem_cons, Segment.placeholder.injEq, ih, written_infix_iff hname hother]
  | @literal c rest segments hnot hrest ih =>
      rw [List.mem_cons, ih, List.infix_cons_iff]
      constructor
      · rintro (h | hinfix)
        · cases h
        · exact .inr hinfix
      · rintro (⟨more, hmore⟩ | hinfix)
        · exact absurd ⟨name, more, hname, hmore.symm⟩ hnot
        · exact .inr hinfix

theorem Pieces.isIdentifier_of_mem {cs : List Char} {segments : List Segment}
    (h : Pieces cs segments) {name : List Char} (hmem : .placeholder name ∈ segments) :
    isIdentifier name = true := by
  induction h with
  | nil => cases hmem
  | placeholder other hother hrest ih =>
      rcases List.mem_cons.mp hmem with h | h
      · cases h; exact hother
      · exact ih h
  | literal c hnot hrest ih =>
      rcases List.mem_cons.mp hmem with h | h
      · cases h
      · exact ih h

theorem placeholder_mem_iff {template : String} {name : List Char} :
    .placeholder name ∈ segments template ↔ Mentions template (String.ofList name) := by
  have hpieces : Pieces template.toList (segments template) := scan_pieces template.toList
  rw [Mentions, String.toList_ofList]
  constructor
  · intro hmem
    have hidentifier := hpieces.isIdentifier_of_mem hmem
    exact ⟨hidentifier, (hpieces.mem_iff hidentifier).mp hmem⟩
  · rintro ⟨hidentifier, hinfix⟩
    exact (hpieces.mem_iff hidentifier).mpr hinfix

theorem mem_placeholders_iff {template name : String} :
    name ∈ placeholders template ↔ Mentions template name := by
  rw [placeholders, Text.mem_ascending, List.mem_filterMap]
  constructor
  · rintro ⟨segment, hmem, hname⟩
    cases segment with
    | literal c => cases hname
    | placeholder other =>
        cases hname
        exact placeholder_mem_iff.mp hmem
  · intro hmentions
    rw [← String.ofList_toList (s := name)] at hmentions
    exact ⟨_, placeholder_mem_iff.mpr hmentions, congrArg some String.ofList_toList⟩

end ClaimCheck.Template
