import ClaimCheck.Clock
import ClaimCheck.Event
import ClaimCheck.Failure
import ClaimCheck.Template
import ClaimCheck.Text.Lowercase
import ClaimCheck.Chat.Client
import ClaimCheck.Evaluation.Request
/-!
Fact checking: a claim and its supporting text are put to a chat model as one prompt, and
only an answer of `yes`, in any case of its letters, passes.
-/
namespace ClaimCheck

structure EvaluationResponse where
  passed : Bool
  score : Binary64
  feedback : String
  metadata : Fields
  deriving Repr

namespace EvaluationResponse

def check (fields : Fields) : Checked EvaluationResponse :=
  let passed := (fields.required "passed" Reader.truth).map EvaluationResponse.mk
  let score := Checked.and passed (fields.optional "score" Reader.number .zero)
  let feedback := Checked.and score (fields.optional "feedback" Reader.text "")
  Checked.and feedback (fields.optional "metadata" Reader.mapping [])

def ofFields (fields : Fields) : Except Rejection EvaluationResponse :=
  (check fields).named "EvaluationResponse"

end EvaluationResponse

namespace Evaluation

inductive Verdict where
  | supported
  | unsupported
  | unrecognised
  deriving DecidableEq, Repr

/-- The verdict of an answer; no answer counts as an empty one. -/
def verdict (content : Option String) : Verdict :=
  let small := Text.lowercase (content.getD "")
  if small = "yes" then .supported
  else if small = "no" then .unsupported
  else .unrecognised

abbrev Client := String → Clock → CallRun

/-- A run of the evaluation. The events hold those of the client in their place; prompts
are what was handed to the client. -/
structure Run where
  outcome : Except Raised EvaluationResponse
  events : List Event
  prompts : List String
  clients : Nat
  sent : List Completion
  clock : Clock
  deriving Repr

def bindings (document claim : String) : Template.Bindings :=
  [("document", document), ("claim", claim)]

def verdictEvents (content : Option String) (durationMs : Int) : List Event :=
  let v := verdict content
  (if v = .unrecognised then [.verdictUnrecognised content] else [])
    ++ [.factCheckCompleted (v == .supported) durationMs]

def run (template : String) (client : Client) (request : EvaluationRequest) (clock : Clock) :
    Run :=
  let document := request.support
  let claim := request.claim
  let started := Event.factCheckStarted claim.length document.length
  match Template.render template (bindings document claim) with
  | .error missing =>
    ⟨.error (.failure (.promptNotRendered missing)), [started], [], 0, [], clock⟩
  | .ok prompt =>
    let (start, clock) := clock.read
    let call := client prompt clock
    match call.outcome with
    | .error raised =>
      ⟨.error raised, started :: call.events, [prompt], 1, call.sent, call.clock⟩
    | .ok response =>
      let (stop, clock) := call.clock.read
      match Clock.milliseconds start stop with
      | .error flaw =>
        ⟨.error (.unmeasured flaw), started :: call.events, [prompt], 1, call.sent, clock⟩
      | .ok durationMs =>
        ⟨.ok ⟨verdict response.content == .supported, .zero, "", []⟩,
          started :: call.events ++ verdictEvents response.content durationMs, [prompt], 1,
          call.sent, clock⟩

structure Task where
  request : EvaluationRequest
  client : Client

/-- Evaluations one after another, each at the clock that the one before has left. -/
def runs (template : String) : List Task → Clock → List Run
  | [], _ => []
  | task :: rest, clock =>
    let r := run template task.client task.request clock
    r :: runs template rest r.clock

end Evaluation
end ClaimCheck
