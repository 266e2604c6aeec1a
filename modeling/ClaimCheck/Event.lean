import ClaimCheck.Text.Rune
import ClaimCheck.Value
import ClaimCheck.Value.Display

namespace ClaimCheck

inductive Level where
  | info
  | warning
  | error
  deriving DecidableEq, Repr

def Level.name : Level → String
  | .info => "info"
  | .warning => "warning"
  | .error => "error"

inductive Event where
  | completionStarted (model : String)
  | completionCompleted (model : String) (durationMs totalTokens : Int)
  | completionFailed (model reason : String)
  | highTemperatureWarned (model : String) (temperature : Binary64)
  | configLoaded (name model : String)
  | configTemperatureWarned (temperature : Binary64)
  | factCheckStarted (claimLength documentLength : Int)
  | factCheckCompleted (passed : Bool) (durationMs : Int)
  | verdictUnrecognised (verdict : Option String)
  deriving DecidableEq, Repr

namespace Event

def name : Event → String
  | .completionStarted .. => "chat.completion_started"
  | .completionCompleted .. => "chat.completion_completed"
  | .completionFailed .. => "chat.completion_failed"
  | .highTemperatureWarned .. => "chat.high_temperature_warned"
  | .configLoaded .. => "config.loaded"
  | .configTemperatureWarned .. => "config.chat_temperature_warning"
  | .factCheckStarted .. => "evaluation.fact_check_started"
  | .factCheckCompleted .. => "evaluation.fact_check_completed"
  | .verdictUnrecognised .. => "evaluation.fact_check_verdict_unrecognised"

def level : Event → Level
  | .completionFailed .. => .error
  | .highTemperatureWarned .. | .configTemperatureWarned .. | .verdictUnrecognised .. => .warning
  | _ => .info

def fields : Event → Fields
  | .completionStarted model => [("model", .text model)]
  | .completionCompleted model durationMs totalTokens =>
    [("model", .text model), ("duration_ms", .int durationMs), ("total_tokens", .int totalTokens)]
  | .completionFailed model reason => [("model", .text model), ("reason", .text reason)]
  | .highTemperatureWarned model temperature =>
    [("model", .text model), ("temperature", .float temperature)]
  | .configLoaded name model => [("name", .text name), ("model", .text model)]
  | .configTemperatureWarned temperature =>
    [("temperature", .float temperature),
      ("message", .text "Chat temperature > 0.0 may produce non-deterministic verdicts")]
  | .factCheckStarted claimLength documentLength =>
    [("claim_length", .int claimLength), ("document_length", .int documentLength)]
  | .factCheckCompleted passed durationMs =>
    [("passed", .bool passed), ("duration_ms", .int durationMs)]
  | .verdictUnrecognised verdict =>
    [("raw_verdict", match verdict with
        | some s => .text s
        | none => .null),
      ("message", .text "Model answered neither 'yes' nor 'no'; treating as unsupported")]

/-- Half of a character that takes two units of sixteen bits. -/
def escapeUnit (n : Nat) : List Char :=
  ['\\', 'u'] ++ Text.hexDigits 4 n

def escapeChar (c : Char) : List Char :=
  if c = '"' ∨ c = '\\' then ['\\', c]
  else if c = '\n' then ['\\', 'n']
  else if c = '\r' then ['\\', 'r']
  else if c = '\t' then ['\\', 't']
  else if c.toNat = 8 then ['\\', 'b']
  else if c.toNat = 12 then ['\\', 'f']
  else if 32 ≤ c.toNat ∧ c.toNat < 127 then [c]
  else if c.toNat < 0x10000 then escapeUnit c.toNat
  else
    let n := c.toNat - 0x10000
    escapeUnit (0xd800 + n / 1024) ++ escapeUnit (0xdc00 + n % 1024)

def textInObject (s : String) : String :=
  String.ofList ('"' :: s.toList.flatMap escapeChar ++ ['"'])

def valueInObject : Value → String
  | .null => "null"
  | .bool b => if b then "true" else "false"
  | .int n => toString n
  | .float .nan => "NaN"
  | .float (.infinite negative) => if negative then "-Infinity" else "Infinity"
  | .float x => x.render
  | value => textInObject value.display

def object (e : Event) : String :=
  let fields : Fields := e.fields ++ [("event", .text e.name), ("level", .text e.level.name)]
  let entries := fields.map fun (name, value) => textInObject name ++ ": " ++ valueInObject value
  "\x7b" ++ ", ".intercalate entries ++ "\x7d"

def line (e : Event) : String :=
  " ".intercalate (("[" ++ e.level.name ++ "]") :: e.name ::
    e.fields.map fun (name, value) => name ++ "=" ++ value.inner)

end Event
end ClaimCheck
