import ClaimCheck.Text.Printable
/-!
Texts that may be torn, and texts between quotes. Beside characters a torn text holds halves of
surrogate pairs, which escapes can write one by one. Between quotes a text stands on one line and
in printable characters only; the quotes are single unless the text holds a single quote and no
double quote.
-/
namespace ClaimCheck.Text

def isHalf (code : Nat) : Bool :=
  0xd800 ≤ code && code < 0xe000

/-- A character of a text, or half of a surrogate pair, which is none. -/
inductive Rune where
  | char (c : Char)
  | half (code : Nat) (h : isHalf code = true)
  deriving DecidableEq, Repr

namespace Rune

def char? : Rune → Option Char
  | .char c => some c
  | .half .. => none

def code : Rune → Nat
  | .char c => c.toNat
  | .half code _ => code

/-- What stands where only characters can: in place of a half the character `0x100000` above it,
in the last plane of private use. -/
def standIn : Rune → Char
  | .char c => c
  | .half code _ => Char.ofNat (code + 0x100000)

end Rune

def isTorn (rs : List Rune) : Bool :=
  rs.any fun r => r.char?.isNone

structure Torn where
  runes : List Rune
  torn : isTorn runes = true
  deriving DecidableEq, Repr

def runes (s : String) : List Rune :=
  s.toList.map .char

def standIns (rs : List Rune) : List Char :=
  rs.map Rune.standIn

def Torn.text (t : Torn) : String :=
  String.ofList (standIns t.runes)

def hexDigits (width n : Nat) : List Char :=
  let digits := Nat.toDigits 16 n
  List.replicate (width - digits.length) '0' ++ digits

def escapeChar (quote c : Char) : List Char :=
  if c = quote ∨ c = '\\' then ['\\', c]
  else if c = '\n' then ['\\', 'n']
  else if c = '\r' then ['\\', 'r']
  else if c = '\t' then ['\\', 't']
  else if isPrintable c then [c]
  else if c.toNat < 0x100 then ['\\', 'x'] ++ hexDigits 2 c.toNat
  else if c.toNat < 0x10000 then ['\\', 'u'] ++ hexDigits 4 c.toNat
  else ['\\', 'U'] ++ hexDigits 8 c.toNat

def escapeRune (quote : Char) : Rune → List Char
  | .char c => escapeChar quote c
  | .half code _ => ['\\', 'u'] ++ hexDigits 4 code

def quotedRunes (rs : List Rune) : String :=
  let quote := if rs.contains (.char '\'') && !rs.contains (.char '"') then '"' else '\''
  String.ofList (quote :: rs.flatMap (escapeRune quote) ++ [quote])

def quoted (s : String) : String :=
  quotedRunes (runes s)

end ClaimCheck.Text
