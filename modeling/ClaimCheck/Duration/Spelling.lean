import ClaimCheck.Number.Numeral
/-!
Durations in field text: amounts whose units are letters after a `P`, as in `P1DT2H30M`, or
days and a clock, as in `3 days, 04:05:06.5`. A sign may stand in front of either. Every
count of days or seconds fits half a machine word.
-/
namespace ClaimCheck.Duration

inductive Misspelling where
  | short
  | trailing
  | hour
  | minute
  | second
  | minuteRange
  | secondRange
  | noPlaces
  | digit
  | repeatedTime
  | partBeforeLast
  | timeUnit
  | dateUnit
  | dayWord
  | large
  | manyDays
  | manyHours
  deriving DecidableEq, Repr

def Misspelling.message : Misspelling → String
  | .short => "input is too short"
  | .trailing => "unexpected extra characters at the end of the input"
  | .hour => "invalid character in hour"
  | .minute => "invalid character in minute"
  | .second => "invalid character in second"
  | .minuteRange => "minute value is outside expected range of 0-59"
  | .secondRange => "second value is outside expected range of 0-59"
  | .noPlaces => "second fraction value is missing"
  | .digit => "invalid digit in duration"
  | .repeatedTime => "`t` character repeated in duration"
  | .partBeforeLast => "quantity fraction invalid in duration"
  | .timeUnit => "quantity invalid in time part of duration"
  | .dateUnit => "quantity invalid in date part of duration"
  | .dayWord => "\"day\" identifier in duration not correctly formatted"
  | .large => "a numeric value in the duration is too large"
  | .manyDays => "durations may not exceed 999,999,999 days"
  | .manyHours => "durations hours must less than 1,000,000,000"

/-- A length of time as a sum of days, seconds and microseconds. -/
structure Span where
  days : Nat
  seconds : Nat
  micros : Nat
  deriving DecidableEq, Repr

def counted (n : Nat) : Except Misspelling Nat :=
  if n < 0x100000000 then .ok n else .error .large

namespace Span

def zero : Span := ⟨0, 0, 0⟩

def addDays (days : Nat) (s : Span) : Except Misspelling Span :=
  (counted (s.days + days)).map fun days => { s with days }

def addSeconds (seconds : Nat) (s : Span) : Except Misspelling Span :=
  (counted (s.seconds + seconds)).map fun seconds => { s with seconds }

def addMicros (micros : Nat) (s : Span) : Except Misspelling Span :=
  (counted (s.micros + micros)).map fun micros => { s with micros }

/-- Adds a number of seconds that is not negative, rounded to the microsecond; a half goes
up. -/
def addPartOfSeconds (x : Binary64) (s : Span) : Except Misspelling Span := do
  let micros := x.fraction * Binary64.ofInt 1000000
  let s ← s.addSeconds (x.trunc?.getD 0).toNat
  s.addMicros (micros.roundHalfAway?.getD 0).toNat

def addPartOfDays (x : Binary64) (s : Span) : Except Misspelling Span := do
  let s ← s.addDays (x.trunc?.getD 0).toNat
  s.addPartOfSeconds (x.fraction * Binary64.ofInt 86400)

/-- The same length with less than a second of microseconds and less than a day of seconds,
if its days are not too many. -/
def carried (s : Span) : Except Misspelling Span := do
  let seconds ← counted (s.seconds + s.micros / 1000000)
  let days ← counted (s.days + seconds / 86400)
  if 999999999 < days then .error .manyDays
  else return ⟨days, seconds % 86400, s.micros % 1000000⟩

def totalMicros (s : Span) : Nat :=
  (s.days * 86400 + s.seconds) * 1000000 + s.micros

end Span

def takeWhole (cs : List Char) : Except Misspelling (Nat × List Char) :=
  match Numeral.spanDigits Text.asciiDigit? cs with
  | ([], _) => .error .digit
  | (digits, rest) => (counted (Numeral.valueOf 0 digits)).map (·, rest)

/-- The part of one that digits after a point write, rounded after each digit. -/
def partOfOne (digits : List Nat) : Binary64 :=
  let ten := Binary64.ofInt 10
  let written := digits.foldl (fun x d => x * ten + Binary64.ofInt (d : Nat)) Binary64.zero
  written / digits.foldl (fun x _ => x * ten) (Binary64.ofInt 1)

def takePart : List Char → Option Binary64 × List Char
  | [] => (none, [])
  | c :: cs =>
    if c = '.' ∨ c = ',' then
      let (digits, rest) := Numeral.spanDigits Text.asciiDigit? cs
      (some (partOfOne digits), rest)
    else (none, c :: cs)

/-- The length in days of a unit before the `T`. -/
def dateUnit? : Char → Option Nat
  | 'Y' => some 365
  | 'M' => some 30
  | 'W' => some 7
  | 'D' => some 1
  | _ => none

def timeUnit? : Char → Option Nat
  | 'H' => some 3600
  | 'M' => some 60
  | 'S' => some 1
  | _ => none

def Span.addDate (count unit : Nat) (part : Option Binary64) (s : Span) :
    Except Misspelling Span := do
  let s ← s.addDays (← counted (count * unit))
  match part with
  | some x => s.addPartOfDays (x * Binary64.ofInt unit)
  | none => return s

def Span.addTime (count unit : Nat) (part : Option Binary64) (s : Span) :
    Except Misspelling Span := do
  let s ← s.addSeconds (← counted (count * unit))
  match part with
  | some x => s.addPartOfSeconds (x * Binary64.ofInt unit)
  | none => return s

/-- Adds up to a bound of amounts with their letters. Only the last of them may have a part
after its point. -/
def addLettered : Nat → (timed parted : Bool) → Span → List Char → Except Misspelling Span
  | _, _, _, s, [] => .ok s
  | 0, _, _, _, _ :: _ => .error .trailing
  | bound + 1, timed, parted, s, 'T' :: cs =>
    if timed then .error .repeatedTime else addLettered bound true parted s cs
  | bound + 1, timed, parted, s, cs => do
    let (count, rest) ← takeWhole cs
    let (part, rest) := takePart rest
    if parted then .error .partBeforeLast
    let unit? := rest.head?.bind (if timed then timeUnit? else dateUnit?)
    match unit? with
    | none => .error (if timed then .timeUnit else .dateUnit)
    | some unit =>
      let s ← if timed then s.addTime count unit part else s.addDate count unit part
      addLettered bound timed part.isSome s (rest.drop 1)

def takeTwoDigits (flaw : Misspelling) : List Char → Except Misspelling (Nat × List Char)
  | tens :: ones :: cs =>
    match Text.asciiDigit? tens, Text.asciiDigit? ones with
    | some t, some o => .ok (t * 10 + o, cs)
    | _, _ => .error flaw
  | _ => .error flaw

def clockSeconds (cs : List Char) : Except Misspelling (Nat × Nat × List Char) := do
  let (seconds, rest) ← takeTwoDigits .second cs
  if 59 < seconds then .error .secondRange
  match rest with
  | [] => return (seconds, 0, [])
  | c :: after =>
    if c = '.' ∨ c = ',' then
      let (places, rest) := Numeral.spanDigits Text.asciiDigit? after
      if places.isEmpty then .error .noPlaces
      else return (seconds, Numeral.valueOf 0 places * Nat.pow 10 (6 - places.length), rest)
    else return (seconds, 0, rest)

def byteLength (cs : List Char) : Nat :=
  (String.ofList cs).utf8ByteSize

/-- The most characters of a clock after its hours: two digits each for minutes and seconds,
and six places. What comes after them is not looked at. -/
def clockTail : Nat := 12

def clock (cs : List Char) : Except Misspelling Span := do
  if byteLength cs < 5 then .error .short
  let hours := cs.takeWhile (· != ':')
  if hours.length = cs.length then .error .hour
  if 10 < byteLength hours then .error .manyHours
  let (digits, other) := Numeral.spanDigits Text.asciiDigit? hours
  if !other.isEmpty then .error .hour
  let hour := Numeral.valueOf 0 digits
  if 2400000000 < hour then .error .manyHours
  let rest := (cs.drop (hours.length + 1)).take clockTail
  if byteLength rest < 2 then .error .short
  let (minutes, rest) ← takeTwoDigits .minute rest
  if 59 < minutes then .error .minuteRange
  let (seconds, micros, rest) ← match rest with
    | ':' :: after => clockSeconds after
    | rest => pure (0, 0, rest)
  if !rest.isEmpty then .error .trailing
  return ⟨hour / 24, hour % 24 * 3600 + minutes * 60 + seconds, micros⟩

def dropOne (c : Char) : List Char → List Char
  | d :: cs => if c = d then cs else d :: cs
  | [] => []

def afterLetter? (letter : Char) : List Char → Option (List Char)
  | c :: cs => if c.toLower = letter then some cs else none
  | [] => none

/-- What follows the word for days, of which the first letter is enough. -/
def afterDayWord? (cs : List Char) : Option (List Char) := do
  let rest ← afterLetter? 'd' (dropOne ' ' cs)
  match afterLetter? 'a' rest with
  | none => return rest
  | some rest =>
    let rest ← afterLetter? 'y' rest
    return (afterLetter? 's' rest).getD rest

def daysAndClock (cs : List Char) : Except Misspelling Span := do
  if cs.isEmpty then .error .short
  let (days, rest) ← takeWhole cs
  match (afterDayWord? rest).map fun rest => dropOne ' ' (dropOne ',' rest) with
  | none => .error .dayWord
  | some [] => return ⟨days, 0, 0⟩
  | some rest =>
    let s ← clock rest
    if 0 < s.days then .error .manyHours
    else return { s with days }

/-- The span that a text spells after its sign. A text is read as days with a clock if it has
the letter for days or is shorter than any clock. -/
def spanOf (cs : List Char) : Except Misspelling Span :=
  match (Numeral.takeSign cs).2 with
  | 'P' :: body => do
    let s ← addLettered body.length false false .zero body
    if cs.length < 3 then .error .short else return s
  | body =>
    if cs.any (·.toLower == 'd') || byteLength cs < 5 then daysAndClock body else clock body

/-- The duration that a text spells: whether it goes back from zero, and its microseconds. -/
def ofSpelling (cs : List Char) : Except Misspelling (Bool × Nat) := do
  let s ← (← spanOf cs).carried
  return ((Numeral.takeSign cs).1, s.totalMicros)

end ClaimCheck.Duration
