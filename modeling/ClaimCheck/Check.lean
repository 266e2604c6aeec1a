import ClaimCheck.Check.Options
import ClaimCheck.Config.Load
import ClaimCheck.Console
import ClaimCheck.Evaluation
/-!
The check of a claim from start to end: make the console, load the configuration, read the
document, ask the model and tell the verdict by a line of output and an exit code. Zero is a
supported claim and one an unsupported one; two is any failure of this program's own work.
-/
namespace ClaimCheck.Check

/-- All that a check depends on besides its command line. Making the console can fail, with a
reason. -/
structure World where
  files : Files
  env : Environment
  clock : Clock
  reply : Reply
  terminal : Environment → Except String Console
  depths : Yaml.Depths

/-- What a check leaves behind. Anything that is not a failure escapes as it is. -/
structure Run where
  exitCode : Nat
  stdout : String
  stderr : String
  events : List Event
  sent : List Completion
  escaped : Option Raised
  deriving Repr

def exitSupported : Nat := 0
def exitUnsupported : Nat := 1
def exitFailure : Nat := 2

def passLine : String := "PASS claim is supported by the document"
def failLine : String := "FAIL claim is not supported by the document"

def knownFormats : List String := ["console", "json"]

def formatMessage (format : String) : String :=
  "Invalid log format: " ++ Text.quoted format ++ ". Must be 'console' or 'json'.\n"

def failed (message : String) (events : List Event) (sent : List Completion) : Run :=
  ⟨exitFailure, "", message, events, sent, none⟩

def ended (raised : Raised) (events : List Event) (sent : List Completion) : Run :=
  match raised with
  | .failure f => failed (f.message ++ "\n") events sent
  | .provider fault =>
    if fault.kind.isInterrupt then failed "Fact check interrupted.\n" events sent
    else ⟨1, "", "", events, sent, some raised⟩
  | _ => ⟨1, "", "", events, sent, some raised⟩

def finished (console : Console) (passed : Bool) (events : List Event) (sent : List Completion) :
    Run :=
  if passed then ⟨exitSupported, console passLine, "", events, sent, none⟩
  else ⟨exitUnsupported, console failLine, "", events, sent, none⟩

def readDocument (files : Files) (path : String) : Except String String :=
  let place := Path.normalized path
  let opening := "Failed to read document " ++ place ++ ": "
  match files.contents? place with
  | none => .error (opening ++ (files.obstacle place).message place ++ "\n")
  | some contents =>
    match Text.decodeUtf8 contents with
    | .ok text => .ok (String.ofList (Text.unifyLines text.toList))
    | .error e => .error (opening ++ e.message ++ "\n")

def templateOf (options : Options) (config : Config) : String :=
  if options.bespoke then Template.documentAndClaim else config.evaluator.resolved

def requestOf (document claim : String) : Except Rejection EvaluationRequest :=
  EvaluationRequest.ofFields
    [("response_content", .text claim), ("supporting_data", .text document)]

def runWith (world : World) (options : Options) (console : Console) (config : Config)
    (events : List Event) : Run :=
  match readDocument world.files options.document with
  | .error message => failed message events []
  | .ok document =>
    match requestOf document options.claim with
    | .error rejection => ended (.rejected rejection) events []
    | .ok request =>
      let client : Evaluation.Client := fun prompt clock =>
        Chat.call config.chat prompt world.reply clock
      let run := Evaluation.run (templateOf options config) client request world.clock
      let events := events ++ run.events
      match run.outcome with
      | .ok response => finished console response.passed events run.sent
      | .error raised => ended raised events run.sent

/-- A whole check. The log format is looked at before anything else. -/
def run (world : World) (options : Options) : Run :=
  if knownFormats.contains options.logFormat then
    match world.terminal world.env with
    | .error reason => ended (.noConsole reason) [] []
    | .ok console =>
      let load := Config.load world.depths world.env world.files options.config
      match load.outcome with
      | .error raised => ended raised load.events []
      | .ok config =>
        runWith world options console config (load.events ++ config.chat.warnings)
  else failed (formatMessage options.logFormat) [] []

end ClaimCheck.Check
