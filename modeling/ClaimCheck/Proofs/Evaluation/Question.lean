import ClaimCheck.Proofs.Evaluation.Configured
import ClaimCheck.Proofs.Template.Distinct
/-!
Nothing of a question is lost on its way into the prompt. With any template that a configuration
can choose, and that asks for nothing but the document and the claim, the prompts of two questions
with the same document are the same for the same claim only, and the other way round.
-/
namespace ClaimCheck.Evaluation
open Template (Mentions DifferAt)

/-- A template that renders for all questions, and whose text tells each document and each claim
from all others. -/
structure KeepsQuestion (template : String) : Prop where
  renders : ∀ document claim, ∃ prompt,
    Template.render template (bindings document claim) = .ok prompt
  document : ∀ claim, Function.Injective fun document =>
    Template.render template (bindings document claim)
  claim : ∀ document, Function.Injective fun claim =>
    Template.render template (bindings document claim)

theorem differAt_document (document document' claim : String) :
    DifferAt "document" document document' (bindings document claim) (bindings document' claim) := by
  refine ⟨rfl, rfl, ?_⟩
  intro n hn
  simp only [Template.Bindings.get?, bindings, List.find?_cons, beq_eq_false_iff_ne.mpr hn.symm]

theorem differAt_claim (document claim claim' : String) :
    DifferAt "claim" claim claim' (bindings document claim) (bindings document claim') := by
  refine ⟨rfl, rfl, ?_⟩
  intro n hn
  simp only [Template.Bindings.get?, bindings, List.find?_cons, beq_eq_false_iff_ne.mpr hn.symm]

theorem renders_of_no_otherNames {template : String} (h : otherNames template = [])
    (document claim : String) :
    ∃ prompt, Template.render template (bindings document claim) = .ok prompt := by
  cases hrender : Template.render template (bindings document claim) with
  | error names =>
      obtain ⟨hnames, hsome⟩ := (render_eq_error_iff_otherNames document claim).mp hrender
      exact absurd (hnames.symm.trans h) hsome
  | ok prompt => exact ⟨prompt, rfl⟩

theorem keepsQuestion_of_mentions {template : String} (halone : otherNames template = [])
    (hdocument : Mentions template "document") (hclaim : Mentions template "claim") :
    KeepsQuestion template := by
  have hrenders := renders_of_no_otherNames halone
  refine ⟨hrenders, ?_, ?_⟩
  · intro claim document document' hsame
    exact (differAt_document document document' claim).value_eq hdocument (hrenders document claim)
      hsame
  · intro document claim claim' hsame
    exact (differAt_claim document claim claim').value_eq hclaim (hrenders document claim) hsame

theorem otherNames_template (choice : PromptChoice) : otherNames choice.template = [] := by
  rw [otherNames, Template.missing, PromptConfig.placeholders_template]
  decide

/-- The library's own prompts lose nothing of a question, and no more does a prompt of an accepted
configuration that renders at all with a document and a claim. -/
theorem no_part_of_question_lost :
    (∀ choice : PromptChoice, KeepsQuestion choice.template) ∧
      ∀ (fields : Fields) (c : PromptConfig), PromptConfig.check fields = .ok c →
        (∃ document claim prompt,
          Template.render c.resolved (bindings document claim) = .ok prompt) →
        KeepsQuestion c.resolved := by
  constructor
  · intro choice
    obtain ⟨hdocument, hclaim⟩ :=
      PromptConfig.lacking_eq_nil_iff.mp (PromptConfig.lacking_template choice)
    exact keepsQuestion_of_mentions (otherNames_template choice) hdocument hclaim
  · rintro fields c hc ⟨document, claim, prompt, hprompt⟩
    have hgrounded := (PromptConfig.check_eq_ok_iff.mp hc).grounded
    have halone : otherNames c.resolved = [] := by
      by_cases hothers : otherNames c.resolved = []
      · exact hothers
      · have hrefused := (render_eq_error_iff_otherNames document claim).mpr ⟨rfl, hothers⟩
        cases hprompt.symm.trans hrefused
    exact keepsQuestion_of_mentions halone hgrounded.document hgrounded.claim

/-- A prompt that asks about the claim twice, on both sides of the document. -/
def claimTwice : String := "\x7bclaim\x7d\x7bdocument\x7d\x7bclaim\x7d"

theorem claim_asked_twice_is_kept :
    PromptConfig.check [("custom_prompt", .text claimTwice)] = .ok ⟨.plain, some claimTwice⟩ ∧
      Template.render claimTwice (bindings "b" "a") = .ok "aba" ∧
      KeepsQuestion claimTwice := by
  have hcheck : PromptConfig.check [("custom_prompt", .text claimTwice)] =
      .ok ⟨.plain, some claimTwice⟩ := by decide +kernel
  have hrender : Template.render claimTwice (bindings "b" "a") = .ok "aba" := by decide +kernel
  exact ⟨hcheck, hrender, no_part_of_question_lost.2 _ _ hcheck ⟨"b", "a", "aba", hrender⟩⟩

end ClaimCheck.Evaluation
