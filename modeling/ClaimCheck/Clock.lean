import ClaimCheck.Number.Binary64
/-!
A clock that is read now and then. The readings that are still to come are given; the
last one is repeated for ever.
-/
namespace ClaimCheck

abbrev Clock := List Binary64

namespace Clock

def read : Clock → Binary64 × Clock
  | [] => (.zero, [])
  | [last] => (last, [last])
  | next :: rest => (next, rest)

/-- Why no whole number of milliseconds lies between two readings. -/
inductive Flaw where
  | endless
  | undefined
  deriving DecidableEq, Repr

def Flaw.message : Flaw → String
  | .endless => "cannot convert float infinity to integer"
  | .undefined => "cannot convert float NaN to integer"

/-- Whole milliseconds between two readings, toward zero. Readings far apart have none. -/
def milliseconds (start stop : Binary64) : Except Flaw Int :=
  let span := (stop - start) * Binary64.ofInt 1000
  match span.trunc? with
  | some n => .ok n
  | none => .error (if span = .nan then .undefined else .endless)

end Clock
end ClaimCheck
