import ClaimCheck.Proofs.Check.Course
import ClaimCheck.Proofs.Config.Section
import ClaimCheck.Proofs.Template.Render
/-!
What a check sends. It sends its one question if it comes to ask it and nothing otherwise, and
that is settled before there is a reply. The question holds the document and the claim as they
are given; with the bespoke template it depends on nothing else in the configuration than its
chat section.
-/
namespace ClaimCheck.Check

variable {world : World} {options : Options} {config : Config} {document prompt : String}

theorem ended_sent (raised : Raised) (events : List Event) (sent : List Completion) :
    (ended raised events sent).sent = sent := by
  cases raised with
  | provider fault => unfold ended; dsimp only; split <;> rfl
  | _ => rfl

theorem conclude_sent (console : Console) (events : List Event) (r : Evaluation.Run) :
    (conclude console events r).sent = r.sent := by
  unfold conclude
  split
  · unfold finished
    split <;> rfl
  · exact ended_sent _ _ _

/-- The question is sent as soon as it is asked, whatever comes of it. -/
theorem Asks.sent (h : Asks world options config document prompt) :
    (run world options).sent = [⟨prompt, config.chat⟩] := by
  obtain ⟨console, hconsole⟩ := h.shown
  rw [h.run_eq hconsole, conclude_sent, evaluation, Evaluation.run_sent h.rendered, ← answerTo,
    answerTo_sent]

theorem AsksNothing.sent (h : AsksNothing world options) :
    (run world options).sent = [] := by
  rcases run_of_asksNothing h with ⟨message, events, hrun⟩ | hstart
  · rw [hrun]
    rfl
  · obtain ⟨_, raised, events, _, hrun⟩ := hstart.run
    rw [hrun, ended_sent]

end ClaimCheck.Check
