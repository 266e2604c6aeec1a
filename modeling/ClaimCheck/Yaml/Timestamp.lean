import ClaimCheck.Value
import ClaimCheck.Yaml.Token
import ClaimCheck.Yaml.Tag

namespace ClaimCheck.Yaml

/-- The numbers of a timestamp as they are written. -/
structure Timestamp where
  year : Nat
  month : Nat
  day : Nat
  /-- Hour, minute, second and microseconds. -/
  time : Option (Nat × Nat × Nat × Nat)
  /-- Seconds ahead of universal time. -/
  offset : Option Int
  /-- Whether month and day have two digits each. -/
  padded : Bool
  deriving DecidableEq, Repr

namespace Timestamp

/-- The number at the start of a text with some count of digits, and what follows it. -/
def take? (least most : Nat) (cs : List Char) : Option (Nat × List Char) :=
  let digits := (cs.take most).takeWhile Form.isDigit
  if digits.length < least then none
  else some (digits.foldl (fun n c => n * 10 + (c.toNat - 48)) 0, cs.drop digits.length)

def skip? (c : Char) : List Char → Option (List Char)
  | d :: cs => if c = d then some cs else none
  | [] => none

def microseconds (digits : List Char) : Nat :=
  let kept := digits.take 6
  kept.foldl (fun n c => n * 10 + (c.toNat - 48)) 0 * Nat.pow 10 (6 - kept.length)

def zone? (cs : List Char) : Option (Option Int) :=
  match cs.dropWhile fun c => c == ' ' || c == '\t' with
  | [] => if cs.isEmpty then some none else none
  | ['Z'] => some (some 0)
  | sign :: rest =>
    if sign ≠ '-' ∧ sign ≠ '+' then none
    else do
      let (hours, rest) ← take? 1 2 rest
      let minutes ← match rest with
        | [] => some 0
        | rest => do
          let (minutes, rest) ← take? 2 2 (← skip? ':' rest)
          if rest.isEmpty then some minutes else none
      let seconds : Int := hours * 3600 + minutes * 60
      return some (if sign = '-' then -seconds else seconds)

def separator? : List Char → Option (List Char)
  | 'T' :: cs => some cs
  | 't' :: cs => some cs
  | c :: cs =>
    if c = ' ' ∨ c = '\t' then some (cs.dropWhile fun c => c == ' ' || c == '\t') else none
  | [] => none

def time? (cs : List Char) : Option ((Nat × Nat × Nat × Nat) × Option Int) := do
  let (hour, rest) ← take? 1 2 (← separator? cs)
  let (minute, rest) ← take? 2 2 (← skip? ':' rest)
  let (second, rest) ← take? 2 2 (← skip? ':' rest)
  let (micros, rest) := match rest with
    | '.' :: after =>
      let digits := after.takeWhile Form.isDigit
      (microseconds digits, after.drop digits.length)
    | rest => (0, rest)
  return ((hour, minute, second, micros), ← zone? rest)

def ofText? (cs : List Char) : Option Timestamp := do
  let (year, rest) ← take? 4 4 cs
  let rest ← skip? '-' rest
  let (month, afterMonth) ← take? 1 2 rest
  let afterMark ← skip? '-' afterMonth
  let (day, afterDay) ← take? 1 2 afterMark
  let padded := rest.length == afterMonth.length + 2 && afterMark.length == afterDay.length + 2
  if afterDay.isEmpty then return ⟨year, month, day, none, none, padded⟩
  let (time, offset) ← time? afterDay
  return ⟨year, month, day, some time, offset, padded⟩

/-- Whether a plain scalar is a timestamp: a day alone has two digits for month and day. -/
def isPlain (cs : List Char) : Bool :=
  match ofText? cs with
  | some t => t.padded || t.time.isSome
  | none => false

def isLeap (year : Nat) : Bool :=
  year % 4 == 0 && (year % 100 != 0 || year % 400 == 0)

def daysInMonth (year month : Nat) : Nat :=
  if month = 2 then (if isLeap year then 29 else 28)
  else if [4, 6, 9, 11].contains month then 30
  else 31

def checkDay (t : Timestamp) : Except ScalarFlaw Unit :=
  if t.year = 0 then .error (.yearOutOfRange t.year)
  else if t.month = 0 ∨ 12 < t.month then .error .monthOutOfRange
  else if t.day = 0 ∨ daysInMonth t.year t.month < t.day then .error .dayOutOfRange
  else .ok ()

def toMoment (t : Timestamp) : Except ScalarFlaw Moment :=
  match t.time with
  | none => do
    checkDay t
    return ⟨t.year, t.month, t.day, none, none⟩
  | some (hour, minute, second, micros) => do
    match t.offset with
    | some offset => if 86400 ≤ offset.natAbs then .error (.offsetOutOfRange offset) else pure ()
    | none => pure ()
    checkDay t
    if 23 < hour then .error .hourOutOfRange
    else if 59 < minute then .error .minuteOutOfRange
    else if 59 < second then .error .secondOutOfRange
    else
      return ⟨t.year, t.month, t.day,
        some ((hour * 3600 + minute * 60 + second) * 1000000 + micros), t.offset⟩

end Timestamp

def Tag.ofPlain (cs : List Char) : Tag :=
  if Form.isOneOf Form.boolWords cs then .bool
  else if Form.isFloat cs then .float
  else if Form.isInteger cs then .int
  else if cs == ['<', '<'] then .merge
  else if Form.isNull cs then .null
  else if Timestamp.isPlain cs then .timestamp
  else if cs == ['='] then .value
  else .str

end ClaimCheck.Yaml
