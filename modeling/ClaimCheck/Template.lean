import ClaimCheck.Text.Identifier
/-!
Prompt templates. A placeholder is an identifier between braces; every other character,
braces included, is literal. A template is scanned once, and rendering puts the values in
without looking at them again.
-/
namespace ClaimCheck.Template

inductive Segment where
  | literal (c : Char)
  | placeholder (name : List Char)
  deriving DecidableEq, Repr

def Segment.source : Segment → List Char
  | .literal c => [c]
  | .placeholder name => '{' :: name ++ ['}']

/-- The name of the placeholder whose opening brace stands just before a text. -/
def placeholderAfterBrace? (cs : List Char) : Option (List Char) :=
  match Text.takeIdentifier? cs with
  | some (name, '}' :: _) => some name
  | _ => none

/-- The pieces of a text after passing over some of its characters. -/
def scan : (skip : Nat) → List Char → List Segment
  | _, [] => []
  | skip + 1, _ :: cs => scan skip cs
  | 0, c :: cs =>
    match if c = '{' then placeholderAfterBrace? cs else none with
    | some name => .placeholder name :: scan (name.length + 1) cs
    | none => .literal c :: scan 0 cs

def segments (template : String) : List Segment :=
  scan 0 template.toList

def Segment.name? : Segment → Option String
  | .literal _ => none
  | .placeholder name => some (String.ofList name)

def placeholders (template : String) : List String :=
  Text.ascending ((segments template).filterMap Segment.name?)

abbrev Bindings := List (String × String)

def Bindings.get? (bindings : Bindings) (name : String) : Option String :=
  (bindings.find? (·.1 == name)).map (·.2)

def missing (template : String) (bindings : Bindings) : List String :=
  (placeholders template).filter fun name => (bindings.get? name).isNone

def Segment.fill (bindings : Bindings) : Segment → List Char
  | .literal c => [c]
  | .placeholder name => ((bindings.get? (String.ofList name)).getD "").toList

def render (template : String) (bindings : Bindings) : Except (List String) String :=
  match missing template bindings with
  | [] => .ok (String.ofList ((segments template).flatMap (·.fill bindings)))
  | names => .error names

inductive CallFault where
  /-- A parameter has the name under which the template itself is handed over. -/
  | givenTwice
  | missing (names : List String)
  deriving DecidableEq, Repr

/-- The name of the parameter that the template is. -/
def templateName : String := "template"

/-- A call with the values as further parameters by name. -/
def call (template : String) (params : Bindings) : Except CallFault String :=
  if (params.get? templateName).isSome then .error .givenTwice
  else (render template params).mapError .missing

def plainQuestion : String :=
  "Evaluate whether or not the following claim is supported by the provided document.\n"
    ++ "Respond with \"yes\" if the claim is supported, or \"no\" if it is not.\n"
    ++ "Document:\n\x7bdocument\x7d\n\nClaim:\n\x7bclaim\x7d\n"

/-- The prompt for models that are trained on documents and claims alone. -/
def documentAndClaim : String :=
  "Document:\n\x7bdocument\x7d\n\nClaim:\n\x7bclaim\x7d\n"

def requiredNames : List String :=
  ["claim", "document"]

def lacking (template : String) : List String :=
  requiredNames.filter fun name => !(placeholders template).contains name

end ClaimCheck.Template
