import ClaimCheck.Number.Numeral
/-!
Integers in field text. A canonical integer has no zeros before its digits and nothing
around them. Any other text is tidied once: white space around it, a plus sign, zeros in
front, a fraction of zeros and single underscores are taken away, and what is left has to
be canonical.
-/
namespace ClaimCheck.FieldInteger

inductive Flaw where
  | unreadable
  | tooLong
  deriving DecidableEq, Repr

/-- The most characters of an integer, of which a minus is one. -/
def maxLength : Nat := 4300

def isNonZeroDigit (c : Char) : Bool :=
  '1' ≤ c && c ≤ '9'

/-- The integer that digits and an optional minus before them write. The length is looked
at before what follows the digits. -/
def canonical (cs : List Char) : Except Flaw Int :=
  let (negative, body) : Bool × List Char := match cs with
    | '-' :: body => (true, body)
    | body => (false, body)
  if body = ['0'] then .ok 0
  else if !(body.head?.map isNonZeroDigit).getD false then .error .unreadable
  else
    let (digits, rest) := Numeral.spanDigits Text.asciiDigit? body
    if maxLength < digits.length + (if negative then 1 else 0) then .error .tooLong
    else if !rest.isEmpty then .error .unreadable
    else
      let n : Int := Numeral.valueOf 0 digits
      .ok (if negative then -n else n)

/-- What follows zeros and underscores of which the last one is given. It starts with a
minus or another digit; before a point and at the end the last character stays. -/
def afterZeros? (last : Char) : List Char → Option (List Char)
  | [] => some [last]
  | c :: cs =>
    if c = '0' ∨ c = '_' then afterZeros? c cs
    else if c = '-' || isNonZeroDigit c then some (c :: cs)
    else if c = '.' then some (last :: c :: cs)
    else none

def dropZeros? : List Char → Option (List Char)
  | '0' :: cs => afterZeros? '0' cs
  | c :: cs => if c = '-' || isNonZeroDigit c then some (c :: cs) else none
  | [] => none

/-- The text without a fraction that is a point and at least one zero. -/
def dropFraction (cs : List Char) : List Char :=
  let whole := cs.takeWhile (· != '.')
  match cs.drop whole.length with
  | _ :: c :: zeros => if (c :: zeros).all (· == '0') then whole else cs
  | _ => cs

/-- The text without a plus sign; a minus must not follow it. -/
def dropPlus? : List Char → Option (List Char)
  | '+' :: '-' :: _ => none
  | '+' :: cs => some cs
  | cs => some cs

def tidied? (cs : List Char) : Option (List Char) := do
  let cs ← dropZeros? (← dropPlus? (Text.trim Text.isWhite cs))
  let cs := dropFraction cs
  some ((Numeral.withoutUnderscores? cs).getD cs)

def read (cs : List Char) : Except Flaw Int :=
  match canonical cs with
  | .ok n => .ok n
  | .error .tooLong => .error .tooLong
  | .error .unreadable =>
    match tidied? cs with
    | some tidy => canonical tidy
    | none => .error .unreadable

end ClaimCheck.FieldInteger
