import ClaimCheck.Proofs.Chat.Fault
import ClaimCheck.Proofs.Evaluation.Configured

namespace ClaimCheck.Evaluation

/-- Where the template renders, a fault that is no interrupt comes out of the call as one failure
that stands for it and is reported once, and the same failure comes out of the evaluation. An
interrupt comes out of both as it is. -/
theorem fault_crosses_both_layers {template prompt : String} {request : EvaluationRequest}
    (hrender : Template.render template (bindings request.support request.claim) = .ok prompt)
    (model : ChatModel) (fault : ProviderFault) (clock : Clock) :
    let client := chatClient model (.fault fault)
    let evaluation := run template client request clock
    let asked := Event.factCheckStarted request.claim.length request.support.length
    let started := Event.completionStarted model.model
    let failed := Event.completionFailed model.model fault.message
    evaluation.prompts = [prompt] ∧
    (¬ fault.kind.IsA .interrupt → ∃ failure, Chat.Wraps fault failure ∧
      (∀ text clock, (client text clock).outcome = .error (.failure failure) ∧
        (client text clock).events = [started, failed]) ∧
      evaluation.outcome = .error (.failure failure) ∧
      evaluation.events = [asked, started, failed]) ∧
    (fault.kind.IsA .interrupt →
      (∀ text clock, (client text clock).outcome = .error (.provider fault) ∧
        (client text clock).events = [started]) ∧
      evaluation.outcome = .error (.provider fault) ∧ evaluation.events = [asked, started]) := by
  intro client evaluation asked started failed
  refine ⟨(run_asked client clock hrender).2.1, ?_, ?_⟩
  · intro h
    have hcall : ∀ text clock, client text clock = _ := Chat.call_fault_failed h model
    have hrun := run_raised hrender (congrArg CallRun.outcome (hcall prompt clock.read.2))
    refine ⟨_, Chat.wraps_invocation fault, fun text clock => ?_, congrArg Run.outcome hrun, ?_⟩
    · rw [hcall]
      exact ⟨rfl, rfl⟩
    · rw [hcall] at hrun
      exact congrArg Run.events hrun
  · intro h
    have hcall : ∀ text clock, client text clock = _ := Chat.call_fault_interrupted h model
    have hrun := run_raised hrender (congrArg CallRun.outcome (hcall prompt clock.read.2))
    refine ⟨fun text clock => ?_, congrArg Run.outcome hrun, ?_⟩
    · rw [hcall]
      exact ⟨rfl, rfl⟩
    · rw [hcall] at hrun
      exact congrArg Run.events hrun

/-- A timeout of a kind of the provider's own, and a user who breaks off, with a document that
looks like a placeholder. -/
theorem late_fault_may_be_tried_again :
    let late : ProviderFault := ⟨.derived "Timeout" .apiTimeout, "no answer in 30 s"⟩
    let broken : ProviderFault := ⟨.interrupt, ""⟩
    Template.render "\x7bclaim\x7d?" (bindings claimInDocument.support claimInDocument.claim) =
        .ok "c?" ∧
      (∃ failure, (run "\x7bclaim\x7d?" (chatClient ⟨"m", .zero, none, none⟩ (.fault late))
          claimInDocument []).outcome = .error (.failure failure) ∧
        failure.message = "Failed to invoke chat model: no answer in 30 s" ∧
        failure.retriable = true) ∧
      (run "\x7bclaim\x7d?" (chatClient ⟨"m", .zero, none, none⟩ (.fault broken))
        claimInDocument []).outcome = .error (.provider broken) := by
  intro late broken
  have hrender : Template.render "\x7bclaim\x7d?"
      (bindings claimInDocument.support claimInDocument.claim) = .ok "c?" := by decide +kernel
  have hlate : ¬ late.kind.IsA .interrupt := by
    rw [← FaultKind.isInterrupt_iff]
    decide
  obtain ⟨_, hfailed, _⟩ := fault_crosses_both_layers hrender ⟨"m", .zero, none, none⟩ late []
  obtain ⟨failure, hwraps, _, houtcome, _⟩ := hfailed hlate
  obtain ⟨_, _, hbroken⟩ := fault_crosses_both_layers hrender ⟨"m", .zero, none, none⟩ broken []
  exact ⟨hrender, ⟨failure, houtcome, hwraps.message,
    hwraps.retriable.mpr (.inl (.step rfl (.step rfl (.refl _))))⟩, (hbroken (.refl _)).2.1⟩

end ClaimCheck.Evaluation
