import ClaimCheck.Clock
import ClaimCheck.Files
import ClaimCheck.Validation
import ClaimCheck.Value.Display
import ClaimCheck.Text.Identifier
import ClaimCheck.Text.Utf8
import ClaimCheck.Yaml.Token
/-!
What can go wrong, by cause. The failures of this library's own work carry a message and
say whether trying again may help; everything else that can end an operation passes
through as it is.
-/
namespace ClaimCheck

/-- The kinds of fault that a call to a model can end with. A provider has further kinds by name,
each a special case of another one or of none of these. -/
inductive FaultKind where
  | invalidValue
  | runtime
  | missingKey
  | timeout
  | connection
  | connectionReset
  | system
  | interrupt
  | apiConnection
  | apiTimeout
  | rateLimited
  | badRequest
  | unauthenticated
  | permissionDenied
  | notFound
  | conflict
  | unprocessable
  | internalServer
  | apiStatus
  | invocation (retriable : Bool)
  | unlisted (name : String)
  | derived (name : String) (base : FaultKind)
  deriving DecidableEq, Repr

structure ProviderFault where
  kind : FaultKind
  detail : String
  deriving DecidableEq, Repr

/-- The kinds after which the same call may succeed: the provider was not reached in time
or refused for now. -/
def FaultKind.isTransient : FaultKind → Bool
  | .apiConnection | .apiTimeout | .rateLimited => true
  | .derived _ base => base.isTransient
  | _ => false

/-- The kinds that stand for a user who breaks off, and not for something that went wrong. -/
def FaultKind.isInterrupt : FaultKind → Bool
  | .interrupt => true
  | .derived _ base => base.isInterrupt
  | _ => false

namespace Failure

def invocationMessage (reason : String) : String :=
  "Failed to invoke chat model: " ++ reason

end Failure

def ProviderFault.message (fault : ProviderFault) : String :=
  match fault.kind with
  | .missingKey => Text.quoted fault.detail
  | .apiTimeout => "Request timed out."
  | .invocation _ => Failure.invocationMessage fault.detail
  | _ => fault.detail

inductive ConfigFlaw where
  | malformed
  | notMapping
  | schema (rejection : Rejection)
  | other (reason : String)
  deriving DecidableEq, Repr

/-- A short form of the reason: the syntax error is not described and of a rejection only
the headline is given. -/
def ConfigFlaw.reason : ConfigFlaw → String
  | .malformed => "invalid YAML"
  | .notMapping => "top-level YAML value must be a mapping"
  | .schema rejection => rejection.headline
  | .other reason => reason

inductive Failure where
  | general (message : String) (retriable : Bool)
  | invocation (reason : String) (retriable : Bool) (cause : Option ProviderFault)
  | metadataKeyNotSet (key : Value)
  | promptNotRendered (missing : List String)
  | variablesNotSet (names : List String)
  | configInvalid (flaw : ConfigFlaw)
  | configNotFound (path : String)
  deriving Repr

namespace Failure

def message : Failure → String
  | .general message _ => message
  | .invocation reason _ _ => invocationMessage reason
  | .metadataKeyNotSet key =>
    "Failed to read response metadata: key '" ++ Value.display key ++ "' is not set"
  | .promptNotRendered missing =>
    "Failed to render prompt: missing values for " ++ ", ".intercalate (Text.sorted missing)
  | .variablesNotSet names =>
    "Failed to load config: missing environment variables: "
      ++ ", ".intercalate (Text.sorted names)
  | .configInvalid flaw => "Failed to validate config: " ++ flaw.reason
  | .configNotFound path =>
    "Failed to load config: file not found: " ++ Path.normalized path

def retriable : Failure → Bool
  | .general _ retriable => retriable
  | .invocation _ retriable _ => retriable
  | _ => false

end Failure

def Refusal.message (path : String) (r : Refusal) : String :=
  "[Errno " ++ toString r.number ++ "] " ++ r.reason ++ ": " ++ Text.quoted path

/-- Everything that an operation can end with instead of a result. -/
inductive Raised where
  | failure (failure : Failure)
  | rejected (rejection : Rejection)
  | provider (fault : ProviderFault)
  | noChoices
  | headersNotMapping (kind : String)
  | unmeasured (flaw : Clock.Flaw)
  | undecodable (error : Text.Utf8Error)
  | unsetVariable (name : String)
  | scalar (flaw : Yaml.ScalarFlaw)
  | nestedTooDeep
  | refused (refusal : Refusal) (path : String)
  | noConsole (reason : String)
  deriving Repr

end ClaimCheck
