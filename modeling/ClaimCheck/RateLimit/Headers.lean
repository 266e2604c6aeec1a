import ClaimCheck.Metadata
import ClaimCheck.Duration.Amounts
import ClaimCheck.Text.FinalSigma
/-!
Rate limits from response headers. Every field has one header name; the first header that
bears it decides, also when its value cannot be read, and headers of other names are
without effect. The same is found in one walk over the headers, with all that can go wrong on it.
-/
namespace ClaimCheck.RateLimit
open Duration (Fault numberOf attempt)

inductive Field where
  | requestsLimit
  | requestsRemaining
  | requestsReset
  | tokensLimit
  | tokensRemaining
  | tokensReset
  deriving DecidableEq

namespace Field

def all : List Field :=
  [requestsLimit, requestsRemaining, requestsReset, tokensLimit, tokensRemaining, tokensReset]

def header : Field → String
  | requestsLimit => "x-ratelimit-limit-requests"
  | requestsRemaining => "x-ratelimit-remaining-requests"
  | requestsReset => "x-ratelimit-reset-requests"
  | tokensLimit => "x-ratelimit-limit-tokens"
  | tokensRemaining => "x-ratelimit-remaining-tokens"
  | tokensReset => "x-ratelimit-reset-tokens"

end Field

/-- The opening that a relay puts before the names of the headers it passes on. -/
def relayOpening : List Char := "llm_provider-".toList

def headerName (name : Value) : List Char :=
  let small := Text.lower (Value.display name).toList
  (Text.dropOpening? relayOpening small).getD small

def firstHeader? (name : String) (headers : List (Value × Value)) : Option String :=
  (headers.find? fun header => headerName header.1 == name.toList).map fun header =>
    Value.display header.2

def countOfText (s : String) : Int :=
  (((Numeral.ofHeader? s.toList).bind Binary64.trunc?)).getD 0

def headerCount (name : String) (headers : List (Value × Value)) : Int :=
  ((firstHeader? name headers).map countOfText).getD 0

def headerDuration (name : String) (headers : List (Value × Value)) : Duration :=
  ((firstHeader? name headers).map Duration.ofText).getD .zero

def ofHeaders (headers : List (Value × Value)) : RateLimit where
  requestsLimit := headerCount Field.requestsLimit.header headers
  requestsRemaining := headerCount Field.requestsRemaining.header headers
  requestsReset := headerDuration Field.requestsReset.header headers
  tokensLimit := headerCount Field.tokensLimit.header headers
  tokensRemaining := headerCount Field.tokensRemaining.header headers
  tokensReset := headerDuration Field.tokensReset.header headers

/-- The rate limit in what stands where headers are expected. Anything blank counts as no
headers; what is neither blank nor a mapping has no rate limit at all. -/
def ofHeaderValue? : Value → Option RateLimit
  | .map headers => some (ofHeaders headers)
  | value => if value.isBlank then some empty else none

namespace Field

def name : Field → String
  | requestsLimit => "requests_limit"
  | requestsRemaining => "requests_remaining"
  | requestsReset => "requests_reset"
  | tokensLimit => "tokens_limit"
  | tokensRemaining => "tokens_remaining"
  | tokensReset => "tokens_reset"

def isReset : Field → Bool
  | requestsReset | tokensReset => true
  | _ => false

/-- What the value of a header says of its field: how long until a reset, or a count. -/
def told (f : Field) (value : Value) : Value :=
  if f.isReset then .duration (Duration.ofText (Value.display value))
  else .int (countOfText (Value.display value))

def ofHeader? (small : List Char) : Option Field :=
  all.find? fun f => f.header.toList == small

end Field

def collect (found : Fields) : List (Value × Value) → Fields
  | [] => found
  | (name, value) :: rest =>
    match Field.ofHeader? (headerName name) with
    | none => collect found rest
    | some f =>
      if (found.get? f.name).isSome then collect found rest
      else collect (found ++ [(f.name, f.told value)]) rest

/-- The name that a header goes by: its text in small letters, without one opening of a relay. -/
def plainName (name : Value) : List Char :=
  let small := Text.lowerInContext (Value.display name).toList
  (Text.dropOpening? relayOpening small).getD small

def truncated (x : Binary64) : Except Fault Int :=
  match x, x.trunc? with
  | .nan, _ => .error .invalid
  | _, some n => .ok n
  | _, none => .error .outOfRange

def attemptCount (s : String) : Except Fault Int :=
  match numberOf (Text.trim Text.isBlank s.toList) >>= truncated with
  | .ok n => .ok n
  | .error _ => .ok 0

namespace Field

def readFrom (f : Field) (value : Value) : Except Fault Value :=
  if f.isReset then (attempt (Value.display value)).map .duration
  else (attemptCount (Value.display value)).map .int

end Field

def walk (found : Fields) : List (Value × Value) → Except Fault Fields
  | [] => .ok found
  | (name, value) :: rest =>
    match Field.ofHeader? (plainName name) with
    | none => walk found rest
    | some f =>
      if (found.get? f.name).isSome then walk found rest
      else do
        let told ← f.readFrom value
        walk (found ++ [(f.name, told)]) rest

/-- The rate limit of headers, or what went wrong: in reading a value or in checking what was
found. -/
def extract (headers : List (Value × Value)) : Except (Fault ⊕ Rejection) RateLimit :=
  if headers.isEmpty then .ok empty
  else
    match walk [] headers with
    | .error fault => .error (.inl fault)
    | .ok found => if found.isEmpty then .ok empty else (ofFields found).mapError .inr

end ClaimCheck.RateLimit
