import ClaimCheck.Duration
import ClaimCheck.Text.Rune

namespace ClaimCheck.Yaml

/-- Why a scalar has no value of the kind that it announces. -/
inductive ScalarFlaw where
  | notInteger (base : Nat) (text : List Text.Rune)
  | tooLong (digits : Nat)
  | notNumber (text : List Text.Rune)
  | tooLarge
  | notTruth (text : List Text.Rune)
  | notMoment
  | notText
  | empty
  | codePoint (n : Nat)
  | yearOutOfRange (year : Nat)
  | monthOutOfRange
  | dayOutOfRange
  | hourOutOfRange
  | minuteOutOfRange
  | secondOutOfRange
  | offsetOutOfRange (seconds : Int)
  deriving DecidableEq, Repr

/-- The most characters of a quoted text in the message on an integer. -/
def shownLength : Nat := 200

def ScalarFlaw.message : ScalarFlaw → String
  | .notInteger base text =>
    "invalid literal for int() with base " ++ toString base ++ ": "
      ++ String.ofList ((Text.quotedRunes text).toList.take shownLength)
  | .tooLong digits =>
    "Exceeds the limit (4300 digits) for integer string conversion: value has "
      ++ toString digits ++ " digits; use sys.set_int_max_str_digits() to increase the limit"
  | .notNumber text => "could not convert string to float: " ++ Text.quotedRunes text
  | .tooLarge => "int too large to convert to float"
  | .notTruth text => Text.quotedRunes text
  | .notMoment => "'NoneType' object has no attribute 'groupdict'"
  | .notText => "expected string or bytes-like object, got 'list'"
  | .empty => "string index out of range"
  | .codePoint _ => "chr() arg not in range(0x110000)"
  | .yearOutOfRange year => "year " ++ toString year ++ " is out of range"
  | .monthOutOfRange => "month must be in 1..12"
  | .dayOutOfRange => "day is out of range for month"
  | .hourOutOfRange => "hour must be in 0..23"
  | .minuteOutOfRange => "minute must be in 0..59"
  | .secondOutOfRange => "second must be in 0..59"
  | .offsetOutOfRange seconds =>
    "offset must be a timedelta strictly between -timedelta(hours=24) and "
      ++ "timedelta(hours=24), not "
      ++ Duration.inParts ⟨seconds * Duration.microsPerSecond⟩ ++ "."

/-- Why a document has no data. Data that refers to itself is nested without end. -/
inductive Fault where
  | malformed
  /-- More of the text is wanted where it breaks off. -/
  | brokenOff
  | scalar (flaw : ScalarFlaw)
  | nestedTooDeep
  deriving DecidableEq, Repr

inductive Directive where
  | version (major minor : Nat)
  | tag (handle opening : List Char)
  | reserved
  deriving DecidableEq, Repr

inductive Token where
  | streamEnd
  | directive (d : Directive)
  | documentStart
  | documentEnd
  | blockSequenceStart
  | blockMappingStart
  | blockEnd
  | flowSequenceStart
  | flowSequenceEnd
  | flowMappingStart
  | flowMappingEnd
  | blockEntry
  | flowEntry
  | key
  | value
  | alias (name : List Char)
  | anchor (name : List Char)
  | tag (handle : Option (List Char)) (suffix : List Char)
  | scalar (text : List Text.Rune) (plain : Bool)
  /-- The place at which no further token can be read. -/
  | fault (f : Fault)
  deriving DecidableEq, Repr

end ClaimCheck.Yaml
