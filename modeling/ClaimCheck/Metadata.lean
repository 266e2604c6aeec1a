import ClaimCheck.Failure
import ClaimCheck.Validation.Reader
import ClaimCheck.Value.Digest
import ClaimCheck.Value.Frozen
/-!
The metadata of a chat response: identifiers, quotas, token counts, filter outcomes and a
bag of further keys. The bag takes no part in equality or hashing.
-/
namespace ClaimCheck

structure Usage where
  promptTokens : Int
  generationTokens : Int
  deriving DecidableEq, Repr

namespace Usage

def empty : Usage := ⟨0, 0⟩

def total (u : Usage) : Int :=
  u.promptTokens + u.generationTokens

def isEmpty (u : Usage) : Bool :=
  u = empty

def text (u : Usage) : String :=
  "Usage(prompt_tokens=" ++ toString u.promptTokens
    ++ ", generation_tokens=" ++ toString u.generationTokens
    ++ ", total_tokens=" ++ toString u.total ++ ")"

def check (fields : Fields) : Checked Usage :=
  Checked.and
    ((fields.optional "prompt_tokens" Reader.integer 0).map Usage.mk)
    (fields.optional "generation_tokens" Reader.integer 0)

def ofFields (fields : Fields) : Except Rejection Usage :=
  (check fields).named "Usage"

def reader : Reader Usage :=
  Reader.record "Usage" check

def toValue (u : Usage) : Value :=
  .record "Usage" u.text [("prompt_tokens", .int u.promptTokens),
    ("generation_tokens", .int u.generationTokens)]

end Usage

structure RateLimit where
  requestsLimit : Int
  requestsRemaining : Int
  requestsReset : Duration
  tokensLimit : Int
  tokensRemaining : Int
  tokensReset : Duration
  deriving DecidableEq, Repr

namespace RateLimit

def empty : RateLimit := ⟨0, 0, .zero, 0, 0, .zero⟩

def isEmpty (r : RateLimit) : Bool :=
  r = empty

def text (r : RateLimit) : String :=
  "RateLimit(requests=" ++ toString r.requestsRemaining ++ "/" ++ toString r.requestsLimit
    ++ " reset=" ++ r.requestsReset.seconds.render ++ "s, tokens="
    ++ toString r.tokensRemaining ++ "/" ++ toString r.tokensLimit
    ++ " reset=" ++ r.tokensReset.seconds.render ++ "s)"

def check (fields : Fields) : Checked RateLimit :=
  let counts (name : String) := fields.optional name Reader.integer 0
  let resets (name : String) := fields.optional name Reader.duration .zero
  let limit := (counts "requests_limit").map RateLimit.mk
  let remaining := Checked.and limit (counts "requests_remaining")
  let reset := Checked.and remaining (resets "requests_reset")
  let tokens := Checked.and reset (counts "tokens_limit")
  Checked.and (Checked.and tokens (counts "tokens_remaining")) (resets "tokens_reset")

def ofFields (fields : Fields) : Except Rejection RateLimit :=
  (check fields).named "RateLimit"

def reader : Reader RateLimit :=
  Reader.record "RateLimit" check

def toValue (r : RateLimit) : Value :=
  .record "RateLimit" r.text [("requests_limit", .int r.requestsLimit),
    ("requests_remaining", .int r.requestsRemaining),
    ("requests_reset", .duration r.requestsReset),
    ("tokens_limit", .int r.tokensLimit),
    ("tokens_remaining", .int r.tokensRemaining),
    ("tokens_reset", .duration r.tokensReset)]

end RateLimit

structure PromptFilter where
  promptIndex : Int
  outcome : Value
  deriving Repr

namespace PromptFilter

def check (fields : Fields) : Checked PromptFilter :=
  Checked.and
    ((fields.required "prompt_index" Reader.integer).map PromptFilter.mk)
    (fields.optional "content_filter_metadata" Reader.any .null)

def ofFields (fields : Fields) : Except Rejection PromptFilter :=
  (check fields).named Value.frozenRecord

def reader : Reader PromptFilter :=
  Reader.record Value.frozenRecord check

def fields (f : PromptFilter) : Fields :=
  [("prompt_index", .int f.promptIndex), ("content_filter_metadata", f.outcome)]

def toValue (f : PromptFilter) : Value :=
  .record Value.frozenRecord (Value.fieldsText f.fields) f.fields

def equal (f g : PromptFilter) : Bool :=
  f.promptIndex == g.promptIndex && f.outcome.equal g.outcome

/-- The index with the frozen outcome, which is what is hashed. -/
def hashed (f : PromptFilter) : Value :=
  .tuple [.int f.promptIndex, f.outcome.freeze]

end PromptFilter

structure PromptMetadata where
  filters : List PromptFilter
  deriving Repr

namespace PromptMetadata

def empty : PromptMetadata := ⟨[]⟩

def check (fields : Fields) : Checked PromptMetadata :=
  (fields.optional "filters" (Reader.tuple PromptFilter.reader) []).map PromptMetadata.mk

def reader : Reader PromptMetadata :=
  Reader.record "PromptMetadata" check

def fields (p : PromptMetadata) : Fields :=
  [("filters", .tuple (p.filters.map PromptFilter.toValue))]

def toValue (p : PromptMetadata) : Value :=
  .record "PromptMetadata" (Value.fieldsText p.fields) p.fields

def find? (p : PromptMetadata) (index : Value) : Option PromptFilter :=
  p.filters.find? fun f => (Value.int f.promptIndex).equal index

def equalFilters : List PromptFilter → List PromptFilter → Bool
  | [], [] => true
  | f :: fs, g :: gs => f.equal g && equalFilters fs gs
  | _, _ => false

def equal (p q : PromptMetadata) : Bool :=
  equalFilters p.filters q.filters

def hashed (p : PromptMetadata) : Value :=
  .tuple (p.filters.map PromptFilter.hashed)

end PromptMetadata

structure Metadata where
  id : String
  model : String
  rateLimit : RateLimit
  usage : Usage
  promptMetadata : PromptMetadata
  extra : Fields
  deriving Repr

namespace Metadata

def empty : Metadata := ⟨"", "", .empty, .empty, .empty, []⟩

def recordName : String := "ChatResponseMetadata"

def check (fields : Fields) : Checked Metadata :=
  let id := (fields.optional "id" Reader.text "").map Metadata.mk
  let model := Checked.and id (fields.optional "model" Reader.text "")
  let rateLimit := Checked.and model (fields.optional "rate_limit" RateLimit.reader .empty)
  let usage := Checked.and rateLimit (fields.optional "usage" Usage.reader .empty)
  let prompts :=
    Checked.and usage (fields.optional "prompt_metadata" PromptMetadata.reader .empty)
  Checked.and prompts (fields.optional "extra" Reader.mapping [])

def ofFields (fields : Fields) : Except Rejection Metadata :=
  (check fields).named recordName

def reader : Reader Metadata :=
  Reader.record recordName check

def text (m : Metadata) : String :=
  "\x7b id: " ++ m.id ++ ", model: " ++ m.model ++ ", usage: " ++ m.usage.text
    ++ ", rateLimit: " ++ m.rateLimit.text ++ " \x7d"

def toValue (m : Metadata) : Value :=
  .record recordName m.text [("id", .text m.id), ("model", .text m.model),
    ("rate_limit", m.rateLimit.toValue), ("usage", m.usage.toValue),
    ("prompt_metadata", m.promptMetadata.toValue), ("extra", Value.ofFields m.extra)]

def keys (m : Metadata) : List String :=
  m.extra.map (·.1)

/-- The value of a key of the bag; only a text can be one. -/
def get? (m : Metadata) : Value → Option Value
  | .text key => m.extra.get? key
  | _ => none

def get (m : Metadata) (key default : Value) : Value :=
  (m.get? key).getD default

def required (m : Metadata) (key : Value) : Except Failure Value :=
  match m.get? key with
  | some value => .ok value
  | none => .error (.metadataKeyNotSet key)

def contains (m : Metadata) (key : Value) : Bool :=
  (m.get? key).isSome

def equal (m n : Metadata) : Bool :=
  m.id == n.id && m.model == n.model && m.rateLimit = n.rateLimit && m.usage = n.usage
    && m.promptMetadata.equal n.promptMetadata

def hashed (m : Metadata) : Value :=
  .tuple [.text m.id, .text m.model, m.rateLimit.toValue, m.usage.toValue,
    m.promptMetadata.hashed]

def unhashable? (m : Metadata) : Option String :=
  Value.unhashable? false m.promptMetadata.toValue

/-- Whether two metadata have the same hash. Equal hashed parts have, and so have unequal
ones with the same digest. -/
def sameHash (m n : Metadata) : Bool :=
  m.hashed.equal n.hashed || m.hashed.digest.same n.hashed.digest

/-- One member of each class of equal metadata, the first one given. -/
def distinct : List Metadata → List Metadata
  | [] => []
  | m :: rest => m :: (distinct rest).filter fun n => !m.equal n

/-- The rejection of writing to an attribute of finished metadata. A name that starts with an
underscore belongs to no field and may be written. -/
def assign? (name : String) : Option Rejection :=
  if name.startsWith "_" then none else some ⟨recordName, [⟨[.name name], .frozen⟩]⟩

end Metadata

end ClaimCheck
