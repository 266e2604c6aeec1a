import ClaimCheck.Event
import ClaimCheck.Template
import ClaimCheck.Validation.Reader

namespace ClaimCheck

structure ChatModel where
  model : String
  temperature : Binary64
  maxTokens : Option Int
  apiBase : Option String
  deriving DecidableEq, Repr

namespace ChatModel

def check (fields : Fields) : Checked ChatModel :=
  let model := (fields.required "model" Reader.nonEmptyText).map ChatModel.mk
  let temperature := Checked.and model (fields.optional "temperature" Reader.nonNegative .zero)
  let maxTokens :=
    Checked.and temperature (fields.optional "max_tokens" (Reader.orNull Reader.positive) none)
  Checked.and maxTokens (fields.optional "api_base" (Reader.orNull Reader.text) none)

def ofFields (fields : Fields) : Except Rejection ChatModel :=
  (check fields).named "ChatModelConfig"

def reader : Reader ChatModel :=
  Reader.record "ChatModelConfig" check

/-- The warning that answers may vary from call to call, given once for a model. -/
def warnings (m : ChatModel) : List Event :=
  if m.temperature.isPositive then [.highTemperatureWarned m.model m.temperature] else []

end ChatModel

inductive PromptChoice where
  | plain
  | bespoke
  deriving DecidableEq, Repr

namespace PromptChoice

def name : PromptChoice → String
  | .plain => "default"
  | .bespoke => "bespoke-minicheck"

def ofName? (name : String) : Option PromptChoice :=
  [plain, bespoke].find? (·.name == name)

def template : PromptChoice → String
  | .plain => Template.plainQuestion
  | .bespoke => Template.documentAndClaim

def reader : Reader PromptChoice := fun value =>
  let unknown : Flaw := .notAmong plain.name bespoke.name
  match value with
  | .torn _ => .fail .notUnicode
  | .text s =>
    match ofName? s with
    | some c => .ok c
    | none => .fail unknown
  | _ => .fail unknown

end PromptChoice

/-- A chosen prompt, and a prompt of one's own that goes before it. -/
structure PromptConfig where
  prompt : PromptChoice
  customPrompt : Option String
  deriving DecidableEq, Repr

namespace PromptConfig

def default : PromptConfig := ⟨.plain, none⟩

def checkMentions (c : PromptConfig) : Checked PromptConfig :=
  match c.customPrompt with
  | none => .ok c
  | some template =>
    match Template.lacking template with
    | [] => .ok c
    | names => .fail (.lacksPlaceholders names)

def check (fields : Fields) : Checked PromptConfig :=
  let prompt := (fields.optional "prompt" PromptChoice.reader .plain).map PromptConfig.mk
  match Checked.and prompt (fields.optional "custom_prompt" (Reader.orNull Reader.text) none) with
  | .ok c => checkMentions c
  | .error issues => .error issues

def reader : Reader PromptConfig :=
  Reader.record "EvaluatorConfig" check

def resolved (c : PromptConfig) : String :=
  match c.customPrompt with
  | some template => template
  | none => c.prompt.template

end PromptConfig

structure Config where
  name : String
  chat : ChatModel
  evaluator : PromptConfig
  deriving DecidableEq, Repr

namespace Config

def check (fields : Fields) : Checked Config :=
  let name := (fields.required "name" Reader.nonEmptyText).map Config.mk
  let chat := Checked.and name (fields.required "chat" ChatModel.reader)
  Checked.and chat (fields.optional "evaluator" PromptConfig.reader .default)

def recordName : String := "GroundCheckConfig"

def reader : Reader Config :=
  Reader.record recordName check

def ofValue (value : Value) : Except Rejection Config :=
  (reader value).named recordName

end Config

end ClaimCheck
