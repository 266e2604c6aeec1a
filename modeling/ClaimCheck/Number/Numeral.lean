import ClaimCheck.Number.Binary64
import ClaimCheck.Text.Blank
/-!
Reading numbers from text. A numeral is an optional sign followed by decimal digits with
an optional point and an optional power of ten, or by the name of infinity or of
not-a-number. The class of digits is a parameter: header text admits every script, field
text ASCII only.
-/
namespace ClaimCheck

namespace Text

/-- Code points of the digit zero of each script, ascending. A script writes its ten digits in a
row. -/
def decimalZeros : List Nat :=
  [
    0x30, 0x660, 0x6f0, 0x7c0, 0x966, 0x9e6, 0xa66, 0xae6, 0xb66, 0xbe6,
    0xc66, 0xce6, 0xd66, 0xde6, 0xe50, 0xed0, 0xf20, 0x1040, 0x1090, 0x17e0,
    0x1810, 0x1946, 0x19d0, 0x1a80, 0x1a90, 0x1b50, 0x1bb0, 0x1c40, 0x1c50, 0xa620,
    0xa8d0, 0xa900, 0xa9d0, 0xa9f0, 0xaa50, 0xabf0, 0xff10, 0x104a0, 0x10d30, 0x11066,
    0x110f0, 0x11136, 0x111d0, 0x112f0, 0x11450, 0x114d0, 0x11650, 0x116c0, 0x11730, 0x118e0,
    0x11950, 0x11c50, 0x11d50, 0x11da0, 0x16a60, 0x16ac0, 0x16b50, 0x1d7ce, 0x1d7d8, 0x1d7e2,
    0x1d7ec, 0x1d7f6, 0x1e140, 0x1e2f0, 0x1e950, 0x1fbf0]

def decimalDigit? (c : Char) : Option Nat :=
  (decimalZeros.find? fun start => start ≤ c.toNat && c.toNat < start + 10).map (c.toNat - ·)

def asciiDigit? (c : Char) : Option Nat :=
  if 48 ≤ c.toNat ∧ c.toNat < 58 then some (c.toNat - 48) else none

end Text

/-- A decimal as it is written: `digits · 10 ^ power`. -/
structure Decimal where
  digits : Nat
  power : Int
  deriving DecidableEq, Repr

namespace Decimal

/-- The nearest double-precision number. Powers far outside the range of finite numbers
are settled without computing them. -/
def toBinary64 (negative : Bool) (d : Decimal) : Binary64 :=
  if d.digits = 0 then Binary64.ofRatio negative 0 1
  else if 400 < d.power then .infinite negative
  else if d.power + (Nat.log2 d.digits : Int) < -400 then Binary64.ofRatio negative 0 1
  else if 0 ≤ d.power then Binary64.ofRatio negative (d.digits * powerOf 10 d.power) 1
  else Binary64.ofRatio negative d.digits (powerOf 10 (-d.power))

end Decimal

namespace Numeral

/-- The value of a row of digits read after `value`. -/
def valueOf (value : Nat) (digits : List Nat) : Nat :=
  digits.foldl (fun acc d => acc * 10 + d) value

def spanDigits (digit? : Char → Option Nat) : List Char → List Nat × List Char
  | [] => ([], [])
  | c :: cs =>
    match digit? c with
    | some d => let (ds, rest) := spanDigits digit? cs; (d :: ds, rest)
    | none => ([], c :: cs)

def takeSign : List Char → Bool × List Char
  | '-' :: cs => (true, cs)
  | '+' :: cs => (false, cs)
  | cs => (false, cs)

def power? (digit? : Char → Option Nat) (cs : List Char) : Option Int :=
  let (negative, cs) := takeSign cs
  match spanDigits digit? cs with
  | (d :: ds, []) =>
    let n : Int := valueOf 0 (d :: ds)
    some (if negative then -n else n)
  | _ => none

/-- Digits with an optional point and an optional power of ten, up to the end of the text. -/
def decimal? (digit? : Char → Option Nat) (cs : List Char) : Option Decimal :=
  let (whole, rest) := spanDigits digit? cs
  let (places, rest) :=
    match rest with
    | '.' :: after => spanDigits digit? after
    | rest => ([], rest)
  if whole.isEmpty && places.isEmpty then none
  else
    let d : Decimal := ⟨valueOf (valueOf 0 whole) places, -(places.length : Int)⟩
    match rest with
    | [] => some d
    | mark :: after =>
      if mark = 'e' ∨ mark = 'E' then
        (power? digit? after).map fun p => { d with power := d.power + p }
      else none

/-- Whether two texts are the same up to ASCII case, the second being lower case. -/
def sameWord (cs : List Char) (word : String) : Bool :=
  cs.map Char.toLower == word.toList

/-- A whole text as a number, without blanks or underscores. -/
def binary64? (digit? : Char → Option Nat) (cs : List Char) : Option Binary64 :=
  let (negative, body) := takeSign cs
  if sameWord body "inf" || sameWord body "infinity" then some (.infinite negative)
  else if sameWord body "nan" then some .nan
  else (decimal? digit? body).map (·.toBinary64 negative)

/-- The text without its underscores, each of which must stand between two characters of a
class, such as two digits. -/
def dropUnderscores? (joins : Char → Bool) : (joinable : Bool) → List Char → Option (List Char)
  | _, [] => some []
  | joinable, '_' :: c :: cs =>
    if joinable && joins c then (dropUnderscores? joins true cs).map (c :: ·) else none
  | _, c :: cs =>
    if c = '_' then none else (dropUnderscores? joins (joins c) cs).map (c :: ·)

/-- A number in header text: blanks around it, digits of every script. -/
def ofHeader? (cs : List Char) : Option Binary64 :=
  (dropUnderscores? (fun c => (Text.decimalDigit? c).isSome) false (Text.trim Text.isBlank cs)).bind
    (binary64? Text.decimalDigit?)

def withoutUnderscores? (cs : List Char) : Option (List Char) :=
  dropUnderscores? (fun c => c != '_') false cs

/-- A number in field text with ASCII digits. White space around it is passed over, unless
the number has underscores. -/
def ofField? (cs : List Char) : Option Binary64 :=
  match binary64? Text.asciiDigit? (Text.trim Text.isWhite cs) with
  | some x => some x
  | none => (withoutUnderscores? cs).bind (binary64? Text.asciiDigit?)

def isDigit (c : Char) : Bool :=
  (Text.decimalDigit? c).isSome

structure Figure where
  whole : List Char
  places : Option (List Char)
  deriving DecidableEq, Repr

namespace Figure

def part (f : Figure) : List Char :=
  match f.places with
  | none => []
  | some row => '.' :: row

def text (f : Figure) : List Char :=
  f.whole ++ f.part

/-- The longest figure at the start of a text, and what follows it. A point belongs to it only
where there are digits behind it. -/
def take? (cs : List Char) : Option (Figure × List Char) :=
  match cs.span isDigit with
  | ([], _) => none
  | (whole, '.' :: after) =>
    match after.span isDigit with
    | ([], _) => some (⟨whole, none⟩, '.' :: after)
    | (places, rest) => some (⟨whole, some places⟩, rest)
  | (whole, rest) => some (⟨whole, none⟩, rest)

end Figure

end Numeral
end ClaimCheck
