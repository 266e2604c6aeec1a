import ClaimCheck.Proofs.Config.Section
import ClaimCheck.Proofs.Template.Render

namespace ClaimCheck

/-- A prompt that asks about the document and the claim. -/
structure PromptConfig.Grounded (c : PromptConfig) : Prop where
  document : Template.Mentions c.resolved "document"
  claim : Template.Mentions c.resolved "claim"

namespace PromptConfig

/-- A choice that the fields spell. A prompt of one's own has to mention the document and the
claim. -/
structure Conforms (fields : Fields) (c : PromptConfig) : Prop where
  prompt : Reader.Takes PromptChoice.reader .plain (fields.get? "prompt") c.prompt
  customPrompt : Reader.Takes (Reader.orNull Reader.text) none (fields.get? "custom_prompt")
    c.customPrompt
  mentions : ∀ template, c.customPrompt = some template →
    Template.Mentions template "document" ∧ Template.Mentions template "claim"

theorem lacking_eq_nil_iff {template : String} : Template.lacking template = [] ↔
    Template.Mentions template "document" ∧ Template.Mentions template "claim" := by
  simp only [Template.lacking, Template.requiredNames, List.filter_eq_nil_iff, List.mem_cons,
    List.not_mem_nil, or_false, forall_eq_or_imp, forall_eq, Bool.not_eq_true', Bool.not_eq_false,
    List.contains_iff_mem, Template.mem_placeholders_iff]
  exact and_comm

theorem placeholders_template (choice : PromptChoice) :
    Template.placeholders choice.template = ["claim", "document"] := by
  cases choice <;> decide +kernel

theorem lacking_template (choice : PromptChoice) : Template.lacking choice.template = [] := by
  rw [Template.lacking, placeholders_template]
  decide

theorem checkMentions_eq_ok_iff {c checked : PromptConfig} : checkMentions c = .ok checked ↔
    c = checked ∧ ∀ template, c.customPrompt = some template →
      Template.Mentions template "document" ∧ Template.Mentions template "claim" := by
  unfold checkMentions
  cases c.customPrompt with
  | none => simp only [Except.ok.injEq, reduceCtorEq, false_implies, implies_true, and_true]
  | some template =>
      simp only [Option.some.injEq, forall_eq', ← lacking_eq_nil_iff]
      cases Template.lacking template with
      | nil => simp only [Except.ok.injEq, and_true]
      | cons name names => exact ⟨nofun, nofun⟩

theorem check_eq_ok_iff {fields : Fields} {c : PromptConfig} :
    check fields = .ok c ↔ Conforms fields c := by
  have hspelled : ∀ other : PromptConfig,
      Checked.and ((fields.optional "prompt" PromptChoice.reader .plain).map PromptConfig.mk)
          (fields.optional "custom_prompt" (Reader.orNull Reader.text) none) = .ok other ↔
        Reader.Takes PromptChoice.reader .plain (fields.get? "prompt") other.prompt ∧
          Reader.Takes (Reader.orNull Reader.text) none (fields.get? "custom_prompt")
            other.customPrompt := by
    intro other
    simp only [Checked.and_eq_ok_iff, map_eq_ok_iff, Fields.optional_eq_ok_iff]
    constructor
    · rintro ⟨_, customPrompt, ⟨prompt, hprompt, rfl⟩, hcustomPrompt, rfl⟩
      exact ⟨hprompt, hcustomPrompt⟩
    · rintro ⟨hprompt, hcustomPrompt⟩
      exact ⟨_, other.customPrompt, ⟨other.prompt, hprompt, rfl⟩, hcustomPrompt, rfl⟩
  unfold check
  dsimp only
  constructor
  · intro h
    split at h
    next other hother =>
      obtain ⟨rfl, hmentions⟩ := checkMentions_eq_ok_iff.mp h
      obtain ⟨hprompt, hcustomPrompt⟩ := (hspelled other).mp hother
      exact ⟨hprompt, hcustomPrompt, hmentions⟩
    next => cases h
  · intro h
    rw [(hspelled c).mpr ⟨h.prompt, h.customPrompt⟩]
    exact checkMentions_eq_ok_iff.mpr ⟨rfl, h.mentions⟩

theorem Conforms.grounded {fields : Fields} {c : PromptConfig} (h : Conforms fields c) :
    c.Grounded := by
  cases hprompt : c.customPrompt with
  | none =>
      have hown : c.resolved = c.prompt.template := by rw [resolved, hprompt]
      obtain ⟨hdocument, hclaim⟩ := lacking_eq_nil_iff.mp (lacking_template c.prompt)
      exact ⟨hown ▸ hdocument, hown ▸ hclaim⟩
  | some template =>
      have hcustom : c.resolved = template := by rw [resolved, hprompt]
      obtain ⟨hdocument, hclaim⟩ := h.mentions template hprompt
      exact ⟨hcustom ▸ hdocument, hcustom ▸ hclaim⟩

/-- The choice that a configuration makes with the value of its own key, or without one. -/
def MadeWith : Option Value → PromptConfig → Prop
  | some value, c => ∃ fields, Reader.FieldsOf "EvaluatorConfig" value fields ∧ Conforms fields c
  | none, c => c = default

theorem takes_iff_madeWith {value : Option Value} {c : PromptConfig} :
    Reader.Takes reader default value c ↔ MadeWith value c := by
  cases value with
  | some value =>
      simp only [Reader.Takes, reader, Reader.record_eq_ok_iff, check_eq_ok_iff, MadeWith]
  | none => exact Iff.rfl

/-- What is left out altogether is the same as no fields. -/
theorem conforms_default : Conforms [] default :=
  ⟨rfl, rfl, nofun⟩

theorem MadeWith.grounded {value : Option Value} {c : PromptConfig} (h : MadeWith value c) :
    c.Grounded := by
  cases value with
  | some value =>
      obtain ⟨fields, _, hfields⟩ := h
      exact hfields.grounded
  | none =>
      cases h
      exact conforms_default.grounded

end PromptConfig

/-- No load lets a prompt through that does not ask about the document and the claim. -/
theorem Config.load_grounded {depths : Yaml.Depths} {env : Environment} {files : Files}
    {path : String} {config : Config} (h : (load depths env files path).outcome = .ok config) :
    config.evaluator.Grounded := by
  obtain ⟨data, _, hload⟩ := load_eq_ok_iff.mp h
  obtain ⟨_, _, _, _, hcheck⟩ := loadData_eq_ok hload
  exact (PromptConfig.takes_iff_madeWith.mp (check_eq_ok_iff.mp hcheck).2.2).grounded

end ClaimCheck
