import ClaimCheck.Proofs.Config.Prompt
import ClaimCheck.Proofs.Template.Occurrence
/-!
Prompts of one's own. Main statement: such a prompt is accepted exactly if the placeholders of the
document and the claim stand in it, wherever that is, and the issue of any other prompt names the
placeholders that do not. So the scan that the check relies on overlooks none.
-/
namespace ClaimCheck.PromptConfig
open Template (Mentions OccursAt Segment written)
open Text (isIdentifier)

theorem orNull_text {value : Value} {t : String} (h : Reader.text value = .ok t) :
    Reader.orNull Reader.text value = .ok (some t) := by
  cases value with
  | null => cases h
  | _ => exact congrArg (Except.map some) h

/-- Alone, a custom prompt is looked at beside the prompt that goes without saying. -/
theorem check_customPrompt {value : Value} {t : String} (h : Reader.text value = .ok t) :
    check [("custom_prompt", value)] = checkMentions ⟨.plain, some t⟩ := by
  have hprompt : Fields.get? [("custom_prompt", value)] "prompt" = none := rfl
  have hcustom : Fields.get? [("custom_prompt", value)] "custom_prompt" = some value := rfl
  simp only [check, Fields.optional, hprompt, hcustom, orNull_text h, Checked.under]
  rfl

theorem mentions_iff_infix {template name : String} (h : isIdentifier name.toList = true) :
    Mentions template name ↔ written name.toList <:+: template.toList :=
  and_iff_right h

theorem isIdentifier_of_required {name : String} (h : name ∈ Template.requiredNames) :
    isIdentifier name.toList = true := by
  simp only [Template.requiredNames, List.mem_cons, List.not_mem_nil, or_false] at h
  rcases h with rfl | rfl <;> decide

theorem mem_lacking_iff {template name : String} :
    name ∈ Template.lacking template ↔
      name ∈ Template.requiredNames ∧ ¬ written name.toList <:+: template.toList := by
  rw [Template.lacking, List.mem_filter]
  apply and_congr_right
  intro hname
  rw [← mentions_iff_infix (isIdentifier_of_required hname), ← Template.mem_placeholders_iff,
    ← List.contains_iff_mem, Bool.not_eq_true', Bool.not_eq_true]

theorem lacking_pairwise (template : String) :
    (Template.lacking template).Pairwise (· < ·) := by
  have hrequired : Template.requiredNames.Pairwise (· < ·) := by decide
  exact hrequired.filter _

theorem checkMentions_eq_error_iff {t : String} {issues : List Issue} :
    checkMentions ⟨.plain, some t⟩ = .error issues ↔
      Template.lacking t ≠ [] ∧ issues = [⟨[], .lacksPlaceholders (Template.lacking t)⟩] := by
  unfold checkMentions
  dsimp only
  split
  next hnone =>
    constructor
    · intro h
      cases h
    · intro h
      exact absurd hnone h.1
  next hsome =>
    constructor
    · intro h
      cases h
      exact ⟨hsome, rfl⟩
    · rintro ⟨_, rfl⟩
      rfl

/-- Names of placeholders that do not stand in a template although they have to, ascending. -/
structure Absent (t : String) (names : List String) : Prop where
  some : names ≠ []
  ascending : names.Pairwise (· < ·)
  mem_iff : ∀ name, name ∈ names ↔ (name = "document" ∨ name = "claim") ∧
    ¬ written name.toList <:+: t.toList

theorem absent_iff {t : String} {names : List String} :
    Absent t names ↔ Template.lacking t ≠ [] ∧ names = Template.lacking t := by
  have hmem : ∀ name, name ∈ Template.lacking t ↔ (name = "document" ∨ name = "claim") ∧
      ¬ written name.toList <:+: t.toList := by
    intro name
    rw [mem_lacking_iff, Template.requiredNames, List.mem_cons, List.mem_singleton, or_comm]
  constructor
  · intro h
    have hsame : names = Template.lacking t := by
      apply Text.eq_of_ascending h.ascending (lacking_pairwise t)
      intro name
      rw [h.mem_iff, hmem]
    exact ⟨hsame ▸ h.some, hsame⟩
  · rintro ⟨hsome, rfl⟩
    exact ⟨hsome, lacking_pairwise t, hmem⟩

/-- A message names placeholders the way they stand in a template. -/
theorem message_lacksPlaceholders (names : List String) :
    (Flaw.lacksPlaceholders names).message = "Value error, custom_prompt must contain " ++
      ", ".intercalate (names.map fun name => String.ofList (written name.toList)) := by
  have hwritten : ∀ name : String,
      "\x7b" ++ name ++ "\x7d" = String.ofList (written name.toList) := by
    intro name
    apply String.toList_inj.mp
    simp only [String.toList_append, written, String.toList_ofList]
    rfl
  have hparts := List.map_congr_left fun name (_ : name ∈ names) => hwritten name
  rw [← hparts]
  rfl

/-- The placeholders of a text are exactly the identifiers that stand between braces in it, and
the scan comes across each of them where it stands. A custom prompt, even a torn one, is accepted
exactly if it has those of the document and the claim; the only issue of any other one names those
that it has not, as they would stand in it. -/
theorem custom_prompt_accepted_iff (t : String) :
    (∀ name, name ∈ Template.placeholders t ↔
        isIdentifier name.toList = true ∧ written name.toList <:+: t.toList) ∧
      (∀ i name, OccursAt t.toList i name ↔ ∃ before after,
        Template.segments t = before ++ .placeholder name :: after ∧
          (before.flatMap Segment.source).length = i) ∧
      (∀ value, Reader.text value = .ok t →
        (∀ c, check [("custom_prompt", value)] = .ok c ↔ c = ⟨.plain, some t⟩ ∧
          written "document".toList <:+: t.toList ∧ written "claim".toList <:+: t.toList) ∧
        ∀ issues, check [("custom_prompt", value)] = .error issues ↔ ∃ names, Absent t names ∧
          issues = [⟨[], .lacksPlaceholders names⟩]) ∧
      ∀ names, (Flaw.lacksPlaceholders names).message =
        "Value error, custom_prompt must contain " ++
          ", ".intercalate (names.map fun name => String.ofList (written name.toList)) := by
  have hdocument : isIdentifier "document".toList = true := by decide
  have hclaim : isIdentifier "claim".toList = true := by decide
  refine ⟨fun name => Template.mem_placeholders_iff, ?_, ?_, message_lacksPlaceholders⟩
  · intro i name
    exact (Template.scan_pieces t.toList).occursAt_iff
  · intro value hvalue
    rw [check_customPrompt hvalue]
    constructor
    · intro c
      rw [checkMentions_eq_ok_iff, eq_comm]
      simp only [Option.some.injEq, forall_eq', mentions_iff_infix hdocument,
        mentions_iff_infix hclaim]
    · intro issues
      simp only [checkMentions_eq_error_iff, absent_iff]
      constructor
      · rintro ⟨hsome, rfl⟩
        exact ⟨_, ⟨hsome, rfl⟩, rfl⟩
      · rintro ⟨names, ⟨hsome, rfl⟩, rfl⟩
        exact ⟨hsome, rfl⟩

/-- A placeholder within further braces, and one that is never closed, before half of a pair. -/
def halfAsked : Text.Torn :=
  ⟨Text.runes "\x7b\x7bdocument\x7d\x7d \x7bclaim" ++ [.half 0xd83d rfl], rfl⟩

theorem unclosed_claim_is_absent :
    Reader.text (.torn halfAsked) = .ok halfAsked.text ∧ Absent halfAsked.text ["claim"] ∧
      check [("custom_prompt", .torn halfAsked)] = .error [⟨[], .lacksPlaceholders ["claim"]⟩] ∧
      OccursAt halfAsked.text.toList 1 "document".toList := by
  have hvalue : Reader.text (.torn halfAsked) = .ok halfAsked.text := rfl
  have hlacking : Template.lacking halfAsked.text = ["claim"] := by decide +kernel
  have habsent : Absent halfAsked.text ["claim"] :=
    absent_iff.mpr ⟨by rw [hlacking]; exact List.cons_ne_nil _ _, hlacking.symm⟩
  obtain ⟨_, hoccurs, hchecked, _⟩ := custom_prompt_accepted_iff halfAsked.text
  obtain ⟨_, hrefused⟩ := hchecked (.torn halfAsked) hvalue
  refine ⟨hvalue, habsent, (hrefused _).mpr ⟨["claim"], habsent, rfl⟩, ?_⟩
  exact (hoccurs 1 _).mpr ⟨[.literal '\x7b'], (Template.segments halfAsked.text).drop 2,
    by decide +kernel, rfl⟩

end ClaimCheck.PromptConfig
