import ClaimCheck.Metadata

namespace ClaimCheck.Metadata

/-- The last value written to each field, and the bag of further keys. -/
structure Builder where
  id : Option Value
  model : Option Value
  rateLimit : Option Value
  usage : Option Value
  promptMetadata : Option Value
  extra : List (Value × Value)
  deriving Repr

namespace Builder

def new : Builder := ⟨none, none, none, none, none, []⟩

def withId (b : Builder) (value : Value) : Builder :=
  { b with id := some value }

def withModel (b : Builder) (value : Value) : Builder :=
  { b with model := some value }

def withRateLimit (b : Builder) (value : Value) : Builder :=
  { b with rateLimit := some value }

def withUsage (b : Builder) (value : Value) : Builder :=
  { b with usage := some value }

def withPromptMetadata (b : Builder) (value : Value) : Builder :=
  { b with promptMetadata := some value }

def withKeyValue (b : Builder) (key value : Value) : Builder :=
  { b with extra := Value.insertEntry b.extra key value }

def written (name : String) (value : Option Value) : Fields :=
  match value with
  | some v => [(name, v)]
  | none => []

def fields (b : Builder) : Fields :=
  written "id" b.id ++ written "model" b.model ++ written "rate_limit" b.rateLimit
    ++ written "usage" b.usage ++ written "prompt_metadata" b.promptMetadata
    ++ [("extra", .map b.extra)]

def build (b : Builder) : Except Rejection Metadata :=
  Metadata.ofFields b.fields

end Builder

/-- A part of metadata that is written as a whole. -/
inductive Field where
  | id
  | model
  | rateLimit
  | usage
  | promptMetadata
  deriving DecidableEq, Repr

def Field.name : Field → String
  | .id => "id"
  | .model => "model"
  | .rateLimit => "rate_limit"
  | .usage => "usage"
  | .promptMetadata => "prompt_metadata"

def field (m : Metadata) : Field → Value
  | .id => .text m.id
  | .model => .text m.model
  | .rateLimit => m.rateLimit.toValue
  | .usage => m.usage.toValue
  | .promptMetadata => m.promptMetadata.toValue

inductive Call where
  | write (field : Field) (value : Value)
  | put (key value : Value)
  | build
  deriving Repr

namespace Builder

def field? (b : Builder) : Field → Option Value
  | .id => b.id
  | .model => b.model
  | .rateLimit => b.rateLimit
  | .usage => b.usage
  | .promptMetadata => b.promptMetadata

def withField (b : Builder) (field : Field) (value : Value) : Builder :=
  match field with
  | .id => b.withId value
  | .model => b.withModel value
  | .rateLimit => b.withRateLimit value
  | .usage => b.withUsage value
  | .promptMetadata => b.withPromptMetadata value

/-- What a call leaves of a builder. A key that cannot be hashed is refused. -/
def after (b : Builder) : Call → Builder
  | .write field value => b.withField field value
  | .put key value => if (Value.unhashable? false key).isNone then b.withKeyValue key value else b
  | .build => b

end Builder

structure NamedCall where
  builder : String
  call : Call
  deriving Repr

structure Workshop where
  builder : String → Builder
  built : List (Except Rejection Metadata)

namespace Workshop

def new : Workshop := ⟨fun _ => .new, []⟩

def results (s : Workshop) (c : NamedCall) : List (Except Rejection Metadata) :=
  match c.call with
  | .build => [(s.builder c.builder).build]
  | _ => []

def step (s : Workshop) (c : NamedCall) : Workshop where
  builder name := if name = c.builder then (s.builder name).after c.call else s.builder name
  built := s.built ++ s.results c

def run (calls : List NamedCall) : Workshop :=
  calls.foldl step new

end Workshop

end ClaimCheck.Metadata
