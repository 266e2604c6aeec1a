import ClaimCheck.Config
import ClaimCheck.Clock
import ClaimCheck.Failure
import ClaimCheck.Metadata.Builder
import ClaimCheck.RateLimit.Headers
/-!
Calls to a chat model: a single user message goes out, and the reply becomes a response
or a failure. A call reports its start and then its completion or its failure.
-/
namespace ClaimCheck

/-- The generated text with its metadata. There is no text when the provider returned none. -/
structure ChatResponse where
  content : Option String
  metadata : Metadata
  deriving Repr

namespace ChatResponse

def check (fields : Fields) : Checked ChatResponse :=
  Checked.and
    ((fields.required "content" (Reader.orNull Reader.text)).map ChatResponse.mk)
    (fields.optional "metadata" Metadata.reader .empty)

def ofFields (fields : Fields) : Except Rejection ChatResponse :=
  (check fields).named "ChatResponse"

end ChatResponse

structure ReportedUsage where
  prompt : Value
  completion : Value
  deriving Repr

/-- What the provider gives back: its parts are values of any kind. -/
structure Answer where
  id : Value
  model : Value
  usage : Option ReportedUsage
  created : Option Value
  hiddenParams : Option Value
  /-- The content of the first choice, if there is a choice at all. -/
  content : Option Value
  deriving Repr

inductive Reply where
  | fault (fault : ProviderFault)
  | answer (answer : Answer)
  deriving Repr

structure Completion where
  prompt : String
  model : ChatModel
  deriving DecidableEq, Repr

/-- What goes to the provider by name: the prompt as the only message, the model, and what of
its settings is given. -/
def Completion.arguments (c : Completion) : Fields :=
  [("messages", .list [Value.ofFields [("role", .text "user"), ("content", .text c.prompt)]]),
      ("model", .text c.model.model), ("temperature", .float c.model.temperature)]
    ++ (match c.model.maxTokens with
      | some n => [("max_tokens", .int n)]
      | none => [])
    ++ (match c.model.apiBase with
      | some base => [("api_base", .text base)]
      | none => [])

structure CallRun where
  outcome : Except Raised ChatResponse
  events : List Event
  sent : List Completion
  clock : Clock
  deriving Repr

namespace Chat

def orElse (value default : Value) : Value :=
  if value.isBlank then default else value

def usageOf (answer : Answer) : Except Rejection Usage :=
  match answer.usage with
  | none => .ok .empty
  | some reported =>
    Usage.ofFields [("prompt_tokens", orElse reported.prompt (.int 0)),
      ("generation_tokens", orElse reported.completion (.int 0))]

def addRateLimit (answer : Answer) (b : Metadata.Builder) : Except Raised Metadata.Builder :=
  match answer.hiddenParams with
  | some (.map entries) =>
    let headers := ((Value.textEntries entries).get? "additional_headers").getD .null
    match RateLimit.ofHeaderValue? headers with
    | some limit => .ok (b.withRateLimit limit.toValue)
    | none => .error (.headersNotMapping headers.kindName)
  | _ => .ok b

def addCreated (answer : Answer) (b : Metadata.Builder) : Metadata.Builder :=
  match answer.created with
  | some (.int n) => b.withKeyValue (.text "created") (.int n)
  | some (.bool v) => b.withKeyValue (.text "created") (.bool v)
  | _ => b

/-- The metadata of an answer; the configured model stands in for a blank one. -/
def metadataOf (model : ChatModel) (answer : Answer) : Except Raised Metadata := do
  let usage ← (usageOf answer).mapError .rejected
  let b := Metadata.Builder.new.withId (orElse answer.id (.text ""))
  let b := (b.withModel (orElse answer.model (.text model.model))).withUsage usage.toValue
  let b ← addRateLimit answer b
  (addCreated answer b).build.mapError .rejected

/-- The response that the first choice of an answer makes with its metadata. -/
def responseOf (answer : Answer) (metadata : Metadata) : Except Raised ChatResponse :=
  match answer.content with
  | none => .error .noChoices
  | some content =>
    (ChatResponse.ofFields [("content", content), ("metadata", metadata.toValue)]).mapError
      .rejected

/-- A call whose completion ended with a fault. An interrupt is neither reported nor
wrapped. -/
def faultOutcome (model : ChatModel) (fault : ProviderFault) : Raised × List Event :=
  if fault.kind.isInterrupt then (.provider fault, [])
  else
    (.failure (.invocation fault.message fault.kind.isTransient (some fault)),
      [.completionFailed model.model fault.message])

/-- What a finished completion reports: how long it took, and then its metadata. -/
def completion (model : ChatModel) (answer : Answer) (start stop : Binary64) :
    Except Raised (Int × Metadata) := do
  let durationMs ← (Clock.milliseconds start stop).mapError .unmeasured
  return (durationMs, ← metadataOf model answer)

def call (model : ChatModel) (text : String) (reply : Reply) (clock : Clock) : CallRun :=
  let started := Event.completionStarted model.model
  let sent := [Completion.mk text model]
  let (start, clock) := clock.read
  match reply with
  | .fault fault =>
    let (raised, events) := faultOutcome model fault
    ⟨.error raised, started :: events, sent, clock⟩
  | .answer answer =>
    let (stop, clock) := clock.read
    match completion model answer start stop with
    | .error raised => ⟨.error raised, [started], sent, clock⟩
    | .ok (durationMs, metadata) =>
      let completed := Event.completionCompleted model.model durationMs metadata.usage.total
      ⟨responseOf answer metadata, [started, completed], sent, clock⟩

structure Exchange where
  text : String
  reply : Reply
  deriving Repr

/-- Calls one after another, each at the clock that the one before has left. -/
def calls (model : ChatModel) : List Exchange → Clock → List CallRun
  | [], _ => []
  | exchange :: rest, clock =>
    let run := call model exchange.text exchange.reply clock
    run :: calls model rest run.clock

/-- The events of a list of calls. Before the first one comes what is reported of the model. -/
def reported (model : ChatModel) (exchanges : List Exchange) (clock : Clock) : List Event :=
  model.warnings ++ (calls model exchanges clock).flatMap (·.events)

end Chat
end ClaimCheck
