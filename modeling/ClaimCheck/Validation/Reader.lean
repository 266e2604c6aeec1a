import ClaimCheck.Validation
import ClaimCheck.Number.FieldInteger
import ClaimCheck.Text.Utf8
import ClaimCheck.Value.Display
/-!
Readers of scalar and collected values. They are lenient: a truth value counts as zero or
one, a text may spell a number, and bytes count as the text that they encode.
-/
namespace ClaimCheck.Reader

/-- The text that a value spells: the first flaw is that of a value which is no text, the
second that of bytes which encode none. A torn text spells nothing. -/
def spelled (unlike broken : Flaw) : Reader String
  | .text s => .ok s
  | .torn _ => .fail .notUnicode
  | .bytes bs =>
    match Text.decodeUtf8 bs with
    | .ok s => .ok s
    | .error _ => .fail broken
  | _ => .fail unlike

def text : Reader String
  | .torn t => .ok t.text
  | value => spelled .notText .notUnicode value

def nonEmptyText : Reader String := fun value =>
  match spelled .notText .notUnicode value with
  | .ok s => if s.isEmpty then .fail .tooShort else .ok s
  | .error issues => .error issues

def orNull {α : Type} (read : Reader α) : Reader (Option α)
  | .null => .ok none
  | value => (read value).map some

/-- The least integer above all that fit a machine word. -/
def wordBound : Int := 0x8000000000000000

def fitsWord (n : Int) : Bool :=
  -wordBound ≤ n && n < wordBound

/-- Whether the integer that a double-precision number equals fits a machine word. The
numbers at both bounds do not count. -/
def fitsWordStrictly (n : Int) : Bool :=
  -wordBound < n && n < wordBound

def integerOfNumber (x : Binary64) : Checked Int :=
  if !x.isFinite then .fail .notFinite
  else
    match x.toInt? with
    | some n => if fitsWordStrictly n then .ok n else .fail .excessiveInteger
    | none => .fail .fractionalInteger

def integerOfText (s : String) : Checked Int :=
  match FieldInteger.read s.toList with
  | .ok n => .ok n
  | .error .unreadable => .fail .unreadableInteger
  | .error .tooLong => .fail .excessiveInteger

def integer : Reader Int := fun value =>
  match value.unmarked with
  | .int n => .ok n
  | .bool b => .ok (if b then 1 else 0)
  | .float x => integerOfNumber x
  | value => (spelled .notInteger .unreadableInteger value).bind integerOfText

def positive : Reader Int := fun value =>
  match integer value with
  | .ok n => if 0 < n then .ok n else .fail .notPositive
  | .error issues => .error issues

def numberOfText (s : String) : Checked Binary64 :=
  match Numeral.ofField? s.toList with
  | some x => .ok x
  | none => .fail .unreadableNumber

def number : Reader Binary64 := fun value =>
  match value.unmarked with
  | .float x => .ok x
  | .int n => if (Binary64.ofInt n).isFinite then .ok (Binary64.ofInt n) else .fail .notNumber
  | .bool b => .ok (Binary64.ofInt (if b then 1 else 0))
  | value => (spelled .notNumber .unreadableNumber value).bind numberOfText

def nonNegative : Reader Binary64 := fun value =>
  match number value with
  | .ok x => if x.isNonNegative then .ok x else .fail .negative
  | .error issues => .error issues

def truthOfWord (s : String) : Checked Bool :=
  let word := String.ofList (s.toList.map Char.toLower)
  if ["0", "off", "f", "false", "n", "no"].contains word then .ok false
  else if ["1", "on", "t", "true", "y", "yes"].contains word then .ok true
  else .fail .unreadableTruth

def truthOfInt (n : Int) : Checked Bool :=
  if n = 0 then .ok false else if n = 1 then .ok true else .fail .unreadableTruth

def truth : Reader Bool := fun value =>
  match value.unmarked with
  | .bool b => .ok b
  | .int n => if fitsWord n then truthOfInt n else .fail .notTruth
  | .float x =>
    match integerOfNumber x with
    | .ok n => truthOfInt n
    | .error _ => .fail .notTruth
  | value => (spelled .notTruth .unreadableTruth value).bind truthOfWord

/-- A length of time on one side of zero. Back from zero it may be too long by less than a
day, which is found out only when the duration is made. -/
def durationOfMicros (negative : Bool) (micros : Nat) : Checked Duration :=
  if Duration.maxMicros < micros then .fail .excessiveDuration
  else
    match Duration.ofMicros? (if negative then -(micros : Int) else micros) with
    | some d => .ok d
    | none => .fail .belowLeastDuration

/-- The whole microseconds in a number of seconds; a half goes away from zero. -/
def microsOfSeconds? (x : Binary64) : Option Int := do
  let whole ← x.trunc?
  let part ← (x.fraction * Binary64.ofInt Duration.microsPerSecond).roundHalfAway?
  return whole * Duration.microsPerSecond + part

def durationOfSeconds (x : Binary64) : Checked Duration :=
  if x = .nan then .fail .undefinedDuration
  else
    match microsOfSeconds? x with
    | some micros => durationOfMicros (micros < 0) micros.natAbs
    | none => .fail .excessiveDuration

/-- A whole number of seconds that fits a machine word. The count of days is kept in half a
word and wraps around there. -/
def durationOfWord (seconds : Int) : Checked Duration :=
  let days := seconds.natAbs / 86400 % 0x100000000
  durationOfMicros (seconds < 0) ((days * 86400 + seconds.natAbs % 86400) * 1000000)

def durationOfText (s : String) : Checked Duration :=
  match Duration.ofSpelling s.toList with
  | .ok (negative, micros) => durationOfMicros negative micros
  | .error why => .fail (.misspeltDuration why)

def duration : Reader Duration := fun value =>
  match value.unmarked with
  | .duration d => .ok d
  | .int n =>
    if fitsWord n then durationOfWord n
    else if (Binary64.ofInt n).isFinite then .fail .excessiveDuration
    else .fail .notDuration
  | .bool b => .ok ⟨if b then Duration.microsPerSecond else 0⟩
  | .float x => durationOfSeconds x
  | value => (spelled .notDuration (.misspeltDuration .digit) value).bind durationOfText

def any : Reader Value := .ok

/-- How a key is written in the place of an issue; integers are positions while they fit
a machine word. -/
def keyStep : Value → Step
  | .text s => .name s
  | .int n => if fitsWord n then .index n else .name (toString n)
  | .bool b => .index (if b then 1 else 0)
  | key => .name (Value.inner key)

def textKeys : List (Value × Value) → Checked Fields
  | [] => .ok []
  | (key, value) :: entries =>
    let name : Checked String :=
      ((text key).under (.name "[key]")).under (keyStep key)
    Checked.and (name.map fun s rest => (s, value) :: rest) (textKeys entries)

def mapping : Reader Fields
  | .map entries => textKeys entries
  | _ => .fail .notMapping

def members? : Value → Option (List Value)
  | .list xs | .tuple xs | .set xs => some xs
  | _ => none

def list {α : Type} (read : Reader α) : Reader (List α) := fun value =>
  match members? value with
  | some xs => Checked.collect 0 (xs.map read)
  | none => .fail .notList

def tuple {α : Type} (read : Reader α) : Reader (List α) := fun value =>
  match members? value with
  | some xs => Checked.collect 0 (xs.map read)
  | none => .fail .notTuple

/-- A record of the given name, already made or as a mapping of its fields. -/
def record {α : Type} (name : String) (read : Fields → Checked α) : Reader α
  | .map entries => read (Value.textEntries entries)
  | .record made _ fields => if made = name then read fields else .fail (.notRecord name)
  | _ => .fail (.notRecord name)

end ClaimCheck.Reader
