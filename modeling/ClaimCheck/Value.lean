import ClaimCheck.Duration
import ClaimCheck.Text.Rune

namespace ClaimCheck

/-- A day of the calendar, with a time of day in microseconds and its distance to
universal time in seconds where they are given. -/
structure Moment where
  year : Nat
  month : Nat
  day : Nat
  micros : Option Nat
  offset : Option Int
  deriving DecidableEq, Repr

namespace Moment

def dayNumber (m : Moment) : Int :=
  let years := m.year - 1
  let isLeap := m.year % 4 == 0 && (m.year % 100 != 0 || m.year % 400 == 0)
  let months := [0, 31, 59, 90, 120, 151, 181, 212, 243, 273, 304, 334].getD (m.month - 1) 0
  let leapDays := years / 4 - years / 100 + years / 400 + (if isLeap && 2 < m.month then 1 else 0)
  years * 365 + leapDays + months + m.day

/-- The point in time that a moment names, in microseconds, if its distance to universal time
is given. -/
def instant? (m : Moment) : Option Int :=
  m.offset.map fun offset =>
    m.dayNumber * Duration.microsPerDay + m.micros.getD 0 - offset * Duration.microsPerSecond

end Moment

/-- A not-a-number that was handed over has a mark that tells it from all others. A record
keeps the text that it is shown as when it stands alone. -/
inductive Value where
  | null
  | bool (b : Bool)
  | int (n : Int)
  | float (x : Binary64)
  | nan (mark : Nat)
  | text (s : String)
  | torn (t : Text.Torn)
  | bytes (bs : List UInt8)
  | duration (d : Duration)
  | moment (m : Moment)
  | list (xs : List Value)
  | tuple (xs : List Value)
  | set (xs : List Value)
  | map (entries : List (Value × Value))
  | record (name text : String) (fields : List (String × Value))
  deriving Repr, Inhabited

abbrev Fields := List (String × Value)

namespace Value

def ofRunes (rs : List Text.Rune) : Value :=
  if h : Text.isTorn rs = true then .torn ⟨rs, h⟩
  else .text (String.ofList (rs.filterMap Text.Rune.char?))

def ofFields (fields : Fields) : Value :=
  .map (fields.map fun (name, value) => (.text name, value))

def textEntries (entries : List (Value × Value)) : Fields :=
  entries.filterMap fun (key, value) =>
    match key with
    | .text name => some (name, value)
    | _ => none

/-- What the value is called where it has the wrong kind. -/
def kindName : Value → String
  | .null => "NoneType"
  | .bool _ => "bool"
  | .int _ => "int"
  | .float _ | .nan _ => "float"
  | .text _ | .torn _ => "str"
  | .bytes _ => "bytes"
  | .duration _ => "datetime.timedelta"
  | .moment _ => "datetime.date"
  | .list _ => "list"
  | .tuple _ => "tuple"
  | .set _ => "set"
  | .map _ => "dict"
  | .record name .. => name

def unmarked : Value → Value
  | .nan _ => .float .nan
  | value => value

/-- Whether a value counts as absent: null, false, zero or empty. A record that is nothing
but a sequence counts as that sequence. -/
def isBlank : Value → Bool
  | .null => true
  | .bool b => !b
  | .int n => n == 0
  | .float x => match x with
    | .finite _ mantissa _ => mantissa == 0
    | _ => false
  | .nan _ => false
  | .text s => s.isEmpty
  | .torn _ => false
  | .bytes bs => bs.isEmpty
  | .duration d => d.micros == 0
  | .moment _ => false
  | .list xs | .tuple xs | .set xs => xs.isEmpty
  | .map entries => entries.isEmpty
  | .record _ _ [(_, .tuple [])] => true
  | .record .. => false

end Value

def Fields.get? (fields : Fields) (name : String) : Option Value :=
  (fields.find? (·.1 == name)).map (·.2)

end ClaimCheck
