import ClaimCheck.Duration.Spelling
import ClaimCheck.Value

namespace ClaimCheck

/-- A step on the way to a value: a field or key by name, or a position or integer key. -/
inductive Step where
  | name (s : String)
  | index (n : Int)
  deriving DecidableEq, Repr

inductive Flaw where
  | missing
  | frozen
  | notText
  | notUnicode
  | tooShort
  | notInteger
  | unreadableInteger
  | excessiveInteger
  | fractionalInteger
  | notFinite
  | notNumber
  | unreadableNumber
  | notTruth
  | unreadableTruth
  | notDuration
  | misspeltDuration (why : Duration.Misspelling)
  | undefinedDuration
  | excessiveDuration
  | belowLeastDuration
  | notPositive
  | negative
  | notList
  | notTuple
  | notMapping
  | notRecord (name : String)
  | notAmong (first second : String)
  | lacksPlaceholders (names : List String)
  deriving DecidableEq, Repr

namespace Flaw

def code : Flaw → String
  | .missing => "missing"
  | .frozen => "frozen_instance"
  | .notText => "string_type"
  | .notUnicode => "string_unicode"
  | .tooShort => "string_too_short"
  | .notInteger => "int_type"
  | .unreadableInteger => "int_parsing"
  | .excessiveInteger => "int_parsing_size"
  | .fractionalInteger => "int_from_float"
  | .notFinite => "finite_number"
  | .notNumber => "float_type"
  | .unreadableNumber => "float_parsing"
  | .notTruth => "bool_type"
  | .unreadableTruth => "bool_parsing"
  | .notDuration => "time_delta_type"
  | .misspeltDuration _ => "time_delta_parsing"
  | .undefinedDuration => "time_delta_parsing"
  | .excessiveDuration => "time_delta_parsing"
  | .belowLeastDuration => "time_delta_overflow"
  | .notPositive => "greater_than"
  | .negative => "greater_than_equal"
  | .notList => "list_type"
  | .notTuple => "tuple_type"
  | .notMapping => "dict_type"
  | .notRecord _ => "model_type"
  | .notAmong .. => "literal_error"
  | .lacksPlaceholders _ => "value_error"

def message : Flaw → String
  | .missing => "Field required"
  | .frozen => "Instance is frozen"
  | .notText => "Input should be a valid string"
  | .notUnicode => "Input should be a valid string, unable to parse raw data as a unicode string"
  | .tooShort => "String should have at least 1 character"
  | .notInteger => "Input should be a valid integer"
  | .unreadableInteger => "Input should be a valid integer, unable to parse string as an integer"
  | .excessiveInteger => "Unable to parse input string as an integer, exceeded maximum size"
  | .fractionalInteger =>
    "Input should be a valid integer, got a number with a fractional part"
  | .notFinite => "Input should be a finite number"
  | .notNumber => "Input should be a valid number"
  | .unreadableNumber => "Input should be a valid number, unable to parse string as a number"
  | .notTruth => "Input should be a valid boolean"
  | .unreadableTruth => "Input should be a valid boolean, unable to interpret input"
  | .notDuration => "Input should be a valid timedelta"
  | .misspeltDuration why => "Input should be a valid timedelta, " ++ why.message
  | .undefinedDuration => "Input should be a valid timedelta, NaN values not permitted"
  | .excessiveDuration =>
    "Input should be a valid timedelta, durations may not exceed 999,999,999 days"
  | .belowLeastDuration => "days=-1000000000; must have magnitude <= 999999999"
  | .notPositive => "Input should be greater than 0"
  | .negative => "Input should be greater than or equal to 0"
  | .notList => "Input should be a valid list"
  | .notTuple => "Input should be a valid tuple"
  | .notMapping => "Input should be a valid dictionary"
  | .notRecord name => "Input should be a valid dictionary or instance of " ++ name
  | .notAmong first second => "Input should be '" ++ first ++ "' or '" ++ second ++ "'"
  | .lacksPlaceholders names =>
    "Value error, custom_prompt must contain "
      ++ ", ".intercalate (names.map fun name => "\x7b" ++ name ++ "\x7d")

/-- Whether a flaw ends the check of the whole record at once. -/
def breaksOff : Flaw → Bool
  | .belowLeastDuration => true
  | _ => false

end Flaw

structure Issue where
  path : List Step
  flaw : Flaw
  deriving DecidableEq, Repr

def Issue.under (step : Step) (issue : Issue) : Issue :=
  { issue with path := step :: issue.path }

/-- The issues of one record that could not be made; where one of them broke off the check,
it is the only one. -/
structure Rejection where
  record : String
  issues : List Issue
  deriving DecidableEq, Repr

def Rejection.headline (r : Rejection) : String :=
  toString r.issues.length ++
    (if r.issues.length = 1 then " validation error for " else " validation errors for ") ++ r.record

def Rejection.breakingFlaw? (r : Rejection) : Option Flaw :=
  (r.issues.find? (·.flaw.breaksOff)).map (·.flaw)

abbrev Checked (α : Type) := Except (List Issue) α

namespace Checked

def fail {α : Type} (flaw : Flaw) : Checked α :=
  .error [⟨[], flaw⟩]

def under {α : Type} (step : Step) : Checked α → Checked α
  | .ok a => .ok a
  | .error issues => .error (issues.map (·.under step))

/-- Gives one more checked argument to a checked function; the issues of both are kept. -/
def and {α β : Type} : Checked (α → β) → Checked α → Checked β
  | .ok f, .ok a => .ok (f a)
  | .error issues, .ok _ => .error issues
  | .ok _, .error issues => .error issues
  | .error issues, .error more => .error (issues ++ more)

/-- All results, or the issues of every member under its position. -/
def collect {α : Type} (position : Nat) : List (Checked α) → Checked (List α)
  | [] => .ok []
  | result :: results =>
    and ((result.under (.index position)).map List.cons) (collect (position + 1) results)

def named {α : Type} (record : String) : Checked α → Except Rejection α
  | .ok a => .ok a
  | .error issues =>
    match issues.find? (·.flaw.breaksOff) with
    | some issue => .error ⟨record, [issue]⟩
    | none => .error ⟨record, issues⟩

end Checked

abbrev Reader (α : Type) := Value → Checked α

namespace Fields

def required {α : Type} (fields : Fields) (name : String) (read : Reader α) : Checked α :=
  match fields.get? name with
  | some value => (read value).under (.name name)
  | none => (Checked.fail .missing : Checked α).under (.name name)

def optional {α : Type} (fields : Fields) (name : String) (read : Reader α) (default : α) :
    Checked α :=
  match fields.get? name with
  | some value => (read value).under (.name name)
  | none => .ok default

end Fields
end ClaimCheck
