import ClaimCheck.Evaluation
import ClaimCheck.Proofs.Failure
/-!
How an evaluation goes. A template that cannot be rendered ends it before there is a client.
After that one client is asked once, and what it raises comes out as it is; an answer becomes a
verdict as soon as the time it took is known.
-/
namespace ClaimCheck.Evaluation

theorem get?_bindings_isSome (document claim name : String) :
    ((bindings document claim).get? name).isSome = true ↔
      name = "document" ∨ name = "claim" := by
  unfold Template.Bindings.get? bindings
  rw [Option.isSome_map, List.find?_isSome]
  simp only [List.mem_cons, List.not_mem_nil, or_false, exists_eq_or_imp, exists_eq_left,
    beq_iff_eq]
  exact or_congr eq_comm eq_comm

section Run
variable {template prompt : String} {client : Client} {request : EvaluationRequest} {clock : Clock}

theorem run_notRendered {missing : List String}
    (h : Template.render template (bindings request.support request.claim) = .error missing) :
    run template client request clock =
      ⟨.error (.failure (.promptNotRendered missing)),
        [.factCheckStarted request.claim.length request.support.length], [], 0, [], clock⟩ := by
  simp only [run, h]

theorem run_raised {raised : Raised}
    (h : Template.render template (bindings request.support request.claim) = .ok prompt)
    (hcall : (client prompt clock.read.2).outcome = .error raised) :
    run template client request clock =
      ⟨.error raised, .factCheckStarted request.claim.length request.support.length ::
          (client prompt clock.read.2).events, [prompt], 1, (client prompt clock.read.2).sent,
        (client prompt clock.read.2).clock⟩ := by
  simp only [run, h, hcall]

/-- The time between the readings before and after a call. -/
def span (client : Client) (prompt : String) (clock : Clock) : Except Clock.Flaw Int :=
  Clock.milliseconds clock.read.1 (client prompt clock.read.2).clock.read.1

theorem run_unmeasured {response : ChatResponse} {flaw : Clock.Flaw}
    (h : Template.render template (bindings request.support request.claim) = .ok prompt)
    (hcall : (client prompt clock.read.2).outcome = .ok response)
    (hspan : span client prompt clock = .error flaw) :
    run template client request clock =
      ⟨.error (.unmeasured flaw), .factCheckStarted request.claim.length request.support.length ::
          (client prompt clock.read.2).events, [prompt], 1, (client prompt clock.read.2).sent,
        (client prompt clock.read.2).clock.read.2⟩ := by
  rw [span] at hspan
  simp only [run, h, hcall, hspan]

theorem run_answered {response : ChatResponse} {durationMs : Int}
    (h : Template.render template (bindings request.support request.claim) = .ok prompt)
    (hcall : (client prompt clock.read.2).outcome = .ok response)
    (hspan : span client prompt clock = .ok durationMs) :
    run template client request clock =
      ⟨.ok ⟨verdict response.content == .supported, .zero, "", []⟩,
        .factCheckStarted request.claim.length request.support.length ::
            (client prompt clock.read.2).events ++ verdictEvents response.content durationMs,
        [prompt], 1, (client prompt clock.read.2).sent,
        (client prompt clock.read.2).clock.read.2⟩ := by
  rw [span] at hspan
  simp only [run, h, hcall, hspan]

/-- Where the template renders, one client is asked once, and what is sent is what it sends. -/
theorem run_asked (client : Client) (clock : Clock)
    (h : Template.render template (bindings request.support request.claim) = .ok prompt) :
    (run template client request clock).clients = 1 ∧
      (run template client request clock).prompts = [prompt] ∧
      (run template client request clock).sent = (client prompt clock.read.2).sent := by
  cases hcall : (client prompt clock.read.2).outcome with
  | error raised =>
      rw [run_raised h hcall]
      exact ⟨rfl, rfl, rfl⟩
  | ok response =>
      cases hspan : span client prompt clock with
      | error flaw =>
          rw [run_unmeasured h hcall hspan]
          exact ⟨rfl, rfl, rfl⟩
      | ok durationMs =>
          rw [run_answered h hcall hspan]
          exact ⟨rfl, rfl, rfl⟩

theorem run_sent
    (h : Template.render template (bindings request.support request.claim) = .ok prompt) :
    (run template client request clock).sent = (client prompt clock.read.2).sent :=
  (run_asked client clock h).2.2

/-- An evaluation fails for the sake of its template where that does not render, or where its
client fails in that way. -/
theorem run_eq_notRendered_iff {names : List String}
    (hclient : ∀ prompt clock,
      (client prompt clock).outcome ≠ .error (.failure (.promptNotRendered names))) :
    (run template client request clock).outcome = .error (.failure (.promptNotRendered names)) ↔
      Template.render template (bindings request.support request.claim) = .error names := by
  cases hrender : Template.render template (bindings request.support request.claim) with
  | error missing => simp [run_notRendered hrender]
  | ok prompt =>
      refine ⟨fun h => ?_, nofun⟩
      cases hcall : (client prompt clock.read.2).outcome with
      | error raised =>
          rw [run_raised hrender hcall] at h
          cases h
          exact absurd hcall (hclient prompt clock.read.2)
      | ok response =>
          cases hspan : span client prompt clock with
          | error flaw => rw [run_unmeasured hrender hcall hspan] at h; cases h
          | ok durationMs => rw [run_answered hrender hcall hspan] at h; cases h

end Run

theorem supported_iff (content : Option String) :
    (verdict content == .supported) = true ↔ Text.lowercase (content.getD "") = "yes" := by
  unfold verdict
  by_cases hyes : Text.lowercase (content.getD "") = "yes"
  · simp only [hyes, if_true, beq_self_eq_true]
  · by_cases hno : Text.lowercase (content.getD "") = "no"
    · simp only [hno]; decide
    · simp only [hyes, hno, if_false]; decide

/-- Only a content that is there can say yes. -/
theorem supported_iff_yes (content : Option String) :
    (verdict content == .supported) = true ↔
      ∃ text, content = some text ∧ Text.lowercase text = "yes" := by
  rw [supported_iff]
  cases content with
  | none =>
      constructor
      · intro h
        have hempty : Text.lowercase "" ≠ "yes" := by decide
        exact absurd h hempty
      · rintro ⟨text, hnone, _⟩
        cases hnone
  | some text =>
      constructor
      · intro h; exact ⟨text, rfl, h⟩
      · rintro ⟨_, hsome, h⟩
        cases hsome
        exact h

end ClaimCheck.Evaluation
