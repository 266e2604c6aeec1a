import ClaimCheck.Duration
import ClaimCheck.Number.Numeral
/-!
Durations as headers write them: a bare number of seconds, or amounts with units one
after another such as `6m0s` and `20ms`. Any other text stands for no time at all. The same comes of
two attempts, with all that can go wrong in them, of which the second looks for amounts anywhere in
the text.
-/
namespace ClaimCheck.Duration

inductive TimeUnit where
  | hour
  | minute
  | second
  | millisecond
  deriving DecidableEq, Repr

def TimeUnit.seconds : TimeUnit → Binary64
  | .hour => Binary64.ofInt 3600
  | .minute => Binary64.ofInt 60
  | .second => Binary64.ofInt 1
  | .millisecond => Binary64.ofRatio false 1 1000

/-- A unit at the start of a text, and what follows it. The longer name is tried first. -/
def TimeUnit.take? : List Char → Option (TimeUnit × List Char)
  | 'm' :: 's' :: cs => some (.millisecond, cs)
  | 'h' :: cs => some (.hour, cs)
  | 'm' :: cs => some (.minute, cs)
  | 's' :: cs => some (.second, cs)
  | _ => none

structure Amount where
  count : Decimal
  unit : TimeUnit
  deriving DecidableEq, Repr

def Amount.seconds (a : Amount) : Binary64 :=
  a.count.toBinary64 false * a.unit.seconds

/-- Digits, optionally with a point and more digits, at the start of a text. -/
def takeCount? (cs : List Char) : Option (Decimal × List Char) :=
  match Numeral.spanDigits Text.decimalDigit? cs with
  | ([], _) => none
  | (whole, '.' :: after) =>
    match Numeral.spanDigits Text.decimalDigit? after with
    | ([], _) => none
    | (places, rest) =>
      some (⟨Numeral.valueOf (Numeral.valueOf 0 whole) places, -(places.length : Int)⟩, rest)
  | (whole, rest) => some (⟨Numeral.valueOf 0 whole, 0⟩, rest)

def Amount.take? (cs : List Char) : Option (Amount × List Char) := do
  let (count, rest) ← takeCount? cs
  let (unit, rest) ← TimeUnit.take? rest
  some (⟨count, unit⟩, rest)

def amountsWithin : Nat → List Char → Option (List Amount)
  | _, [] => some []
  | 0, _ :: _ => none
  | bound + 1, cs =>
    match Amount.take? cs with
    | some (amount, rest) => (amountsWithin bound rest).map (amount :: ·)
    | none => none

def amounts? (cs : List Char) : Option (List Amount) :=
  match amountsWithin cs.length cs with
  | some [] => none
  | found => found

/-- The seconds of all amounts, added from left to right and rounded after each step. -/
def totalSeconds (amounts : List Amount) : Binary64 :=
  amounts.foldl (fun total amount => total + amount.seconds) Binary64.zero

def ofNumeral? (cs : List Char) : Option Duration :=
  (Numeral.ofHeader? cs).bind ofSeconds?

def ofAmounts? (cs : List Char) : Option Duration :=
  (amounts? cs).bind fun amounts => ofSeconds? (totalSeconds amounts)

/-- The duration that a text stands for, zero if none. -/
def ofText (s : String) : Duration :=
  let cs := Text.trim Text.isBlank s.toList
  match ofNumeral? cs with
  | some d => d
  | none => (ofAmounts? cs).getD zero

def TimeUnit.letters : TimeUnit → List Char
  | .hour => ['h']
  | .minute => ['m']
  | .second => ['s']
  | .millisecond => ['m', 's']

structure Quantity where
  figure : Numeral.Figure
  unit : TimeUnit
  deriving DecidableEq, Repr

namespace Quantity

def text (q : Quantity) : List Char :=
  q.figure.text ++ q.unit.letters

def take? (cs : List Char) : Option (Quantity × List Char) := do
  let (figure, rest) ← Numeral.Figure.take? cs
  let (unit, rest) ← TimeUnit.take? rest
  some (⟨figure, unit⟩, rest)

end Quantity

def quantitiesText (parts : List Quantity) : List Char :=
  parts.flatMap Quantity.text

/-- What can go wrong with a number: a text is none, or no duration has so many seconds. -/
inductive Fault where
  | invalid
  | outOfRange
  deriving DecidableEq, Repr

def numberOf (cs : List Char) : Except Fault Binary64 :=
  match Numeral.ofHeader? cs with
  | some x => .ok x
  | none => .error .invalid

/-- A number of seconds as a duration. What is not a number is invalid. -/
def lasting (seconds : Binary64) : Except Fault Duration :=
  match seconds, ofSeconds? seconds with
  | .nan, _ => .error .invalid
  | _, some d => .ok d
  | _, none => .error .outOfRange

/-- The quantities found in a text from left to right, after passing over some of its
characters. -/
def findings : (skip : Nat) → List Char → List Quantity
  | _, [] => []
  | skip + 1, _ :: cs => findings skip cs
  | 0, c :: cs =>
    match Quantity.take? (c :: cs) with
    | some (q, _) => q :: findings (q.text.length - 1) cs
    | none => findings 0 cs

def addSeconds (sum : Binary64) : List Quantity → Except Fault Binary64
  | [] => .ok sum
  | q :: parts => do
    let x ← numberOf q.figure.text
    addSeconds (sum + x * q.unit.seconds) parts

/-- The second attempt minds only that the sum is out of range. -/
def attemptQuantities (text : List Char) : Except Fault Duration :=
  let parts := findings 0 text
  if parts = [] ∨ quantitiesText parts ≠ text then .ok zero
  else
    match addSeconds .zero parts >>= lasting with
    | .error .outOfRange => .ok zero
    | outcome => outcome

/-- The first attempt minds every fault. -/
def attempt (s : String) : Except Fault Duration :=
  let text := Text.trim Text.isBlank s.toList
  match numberOf text >>= lasting with
  | .ok d => .ok d
  | .error _ => attemptQuantities text

end ClaimCheck.Duration
