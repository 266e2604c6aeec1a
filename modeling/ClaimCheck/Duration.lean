import ClaimCheck.Number.Shortest

namespace ClaimCheck

structure Duration where
  micros : Int
  deriving DecidableEq, Repr

namespace Duration

def zero : Duration := ⟨0⟩

def microsPerSecond : Int := 1000000

def microsPerDay : Int := 86400 * microsPerSecond

/-- The longest duration: 999,999,999 days and all but a microsecond of the next. -/
def maxMicros : Int := 1000000000 * microsPerDay - 1

def minMicros : Int := -999999999 * microsPerDay

def ofMicros? (micros : Int) : Option Duration :=
  if minMicros ≤ micros ∧ micros ≤ maxMicros then some ⟨micros⟩ else none

/-- A number of seconds as a duration. The whole seconds are exact; what comes after the
point is multiplied by a million and then rounded, a half to the even microsecond. -/
def ofSeconds? (seconds : Binary64) : Option Duration := do
  let whole ← seconds.trunc?
  let part ← (seconds.fraction * Binary64.ofInt microsPerSecond).roundHalfEven?
  ofMicros? (whole * microsPerSecond + part)

def seconds (d : Duration) : Binary64 :=
  Binary64.ofRatio (decide (d.micros < 0)) d.micros.natAbs microsPerSecond.toNat

def twoDigits (n : Nat) : String :=
  if n < 10 then "0" ++ toString n else toString n

/-- Days if there are any, then hours, minutes and seconds, then six places if the
duration is not a whole number of seconds. -/
def text (d : Duration) : String :=
  let days := Int.fdiv d.micros microsPerDay
  let rest := (Int.fmod d.micros microsPerDay).toNat
  let micros := rest % 1000000
  let seconds := rest / 1000000
  let clock := toString (seconds / 3600) ++ ":" ++ twoDigits (seconds / 60 % 60) ++ ":"
    ++ twoDigits (seconds % 60)
  let places := toString micros
  let part :=
    if micros = 0 then ""
    else "." ++ String.ofList (List.replicate (6 - places.length) '0') ++ places
  let front :=
    if days = 0 then ""
    else toString days ++ (if days.natAbs = 1 then " day, " else " days, ")
  front ++ clock ++ part

/-- The duration put together from its days, seconds and microseconds, as far as they are
not zero. Only the days may be negative. -/
def inParts (d : Duration) : String :=
  let days := Int.fdiv d.micros microsPerDay
  let rest := Int.fmod d.micros microsPerDay
  let parts := [("days", days), ("seconds", rest / microsPerSecond),
    ("microseconds", rest % microsPerSecond)]
  let shown := (parts.filter (·.2 != 0)).map fun (name, n) => name ++ "=" ++ toString n
  "datetime.timedelta(" ++ (if shown.isEmpty then "0" else ", ".intercalate shown) ++ ")"

end Duration
end ClaimCheck
