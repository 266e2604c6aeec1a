import ClaimCheck.Number.Numeral
import ClaimCheck.Text.FinalSigma
import ClaimCheck.Yaml.Token
import ClaimCheck.Yaml.Tag

namespace ClaimCheck.Yaml.Number
open Text (Rune standIns)

def dropUnderscores (text : List Rune) : List Rune :=
  text.filter (· != .char '_')

/-- Whether a text starts with a minus, and the text without its sign. An empty text has
no sign to look for. -/
def takeSign : List Rune → Except ScalarFlaw (Bool × List Rune)
  | [] => .error .empty
  | .char '-' :: rest => .ok (true, rest)
  | .char '+' :: rest => .ok (false, rest)
  | text => .ok (false, text)

def digit? (base : Nat) (c : Char) : Option Nat :=
  let value :=
    match Text.decimalDigit? c with
    | some d => some d
    | none =>
      let small := c.toLower
      if 'a' ≤ small ∧ small ≤ 'z' then some (small.toNat - 87) else none
  value.bind fun d => if d < base then some d else none

def baseLetter? (base : Nat) : Option Char :=
  if base = 2 then some 'b' else if base = 8 then some 'o' else if base = 16 then some 'x' else none

def dropBaseName (base : Nat) : List Char → List Char
  | '0' :: c :: cs => if baseLetter? base = some c.toLower then cs else '0' :: c :: cs
  | cs => cs

/-- The most digits of an integer in a base that is no power of two. -/
def maxDigits : Nat := 4300

/-- The integer that a text writes in a base, white space around it and a sign before it.
The number of digits is looked at before what follows them. -/
def integerIn (base : Nat) (text : List Rune) : Except ScalarFlaw Int :=
  let (negative, body) := Numeral.takeSign ((standIns text).dropWhile Text.isWhite)
  let (digits, rest) := Numeral.spanDigits (digit? base) (dropBaseName base body)
  if base = 10 ∧ maxDigits < digits.length then .error (.tooLong digits.length)
  else if digits.isEmpty || !(rest.dropWhile Text.isWhite).isEmpty then
    .error (.notInteger base text)
  else
    let n : Nat := digits.foldl (fun n d => n * base + d) 0
    .ok (if negative then -n else n)

def sixtiethInteger (parts : List (List Rune)) : Except ScalarFlaw Int :=
  parts.foldlM (fun n part => do return n * 60 + (← integerIn 10 part)) 0

def integer (text : List Rune) : Except ScalarFlaw Int := do
  let (negative, body) ← takeSign (dropUnderscores text)
  let n : Int ←
    match body with
    | [] => .error .empty
    | [.char '0'] => .ok 0
    | .char '0' :: .char 'b' :: digits => integerIn 2 digits
    | .char '0' :: .char 'x' :: digits => integerIn 16 digits
    | .char '0' :: _ => integerIn 8 body
    | body =>
      if body.contains (.char ':') then sixtiethInteger (Form.splitAt (.char ':') body)
      else integerIn 10 body
  return if negative then -n else n

def floatOf (text : List Rune) : Except ScalarFlaw Binary64 :=
  match Numeral.binary64? Text.decimalDigit? (Text.trim Text.isWhite (standIns text)) with
  | some x => .ok x
  | none => .error (.notNumber text)

/-- A row of digits in base sixty, the last one first, added to a sum. Each power of sixty
has to be a finite number, whatever the digit. -/
def addSixtieths (sum : Binary64) (base : Int) : List Binary64 → Except ScalarFlaw Binary64
  | [] => .ok sum
  | digit :: digits =>
    let scale := Binary64.ofInt base
    if scale.isFinite then addSixtieths (sum + digit * scale) (base * 60) digits
    else .error .tooLarge

def sixtiethFloat (parts : List (List Rune)) : Except ScalarFlaw Binary64 := do
  let digits ← parts.mapM floatOf
  addSixtieths .zero 1 digits.reverse

def float (text : List Rune) : Except ScalarFlaw Binary64 := do
  let (negative, body) ← takeSign (Text.lowerRunes (dropUnderscores text))
  let x ←
    if body = Text.runes ".inf" then pure (Binary64.infinite false)
    else if body = Text.runes ".nan" then pure Binary64.nan
    else if body.contains (.char ':') then sixtiethFloat (Form.splitAt (.char ':') body)
    else floatOf body
  return if negative then -x else x

end ClaimCheck.Yaml.Number
