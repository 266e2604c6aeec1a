import ClaimCheck.Yaml.Cursor
import ClaimCheck.Yaml.Token

namespace ClaimCheck.Yaml.Quoted
open Text (Rune isHalf)

def simpleEscape? : Char → Option Char
  | '0' => some (Char.ofNat 0)
  | 'a' => some (Char.ofNat 7)
  | 'b' => some (Char.ofNat 8)
  | 't' => some '\t'
  | '\t' => some '\t'
  | 'n' => some '\n'
  | 'v' => some (Char.ofNat 0xb)
  | 'f' => some (Char.ofNat 0xc)
  | 'r' => some '\r'
  | 'e' => some (Char.ofNat 0x1b)
  | ' ' => some ' '
  | '"' => some '"'
  | '\\' => some '\\'
  | '/' => some '/'
  | 'N' => some nextLine
  | '_' => some (Char.ofNat 0xa0)
  | 'L' => some (Char.ofNat 0x2028)
  | 'P' => some (Char.ofNat 0x2029)
  | _ => none

def codeLength? : Char → Option Nat
  | 'x' => some 2
  | 'u' => some 4
  | 'U' => some 8
  | _ => none

def hexDigit? (c : Char) : Option Nat :=
  if '0' ≤ c ∧ c ≤ '9' then some (c.toNat - 48)
  else if 'a' ≤ c ∧ c ≤ 'f' then some (c.toNat - 87)
  else if 'A' ≤ c ∧ c ≤ 'F' then some (c.toNat - 55)
  else none

def hexNumber? : Nat → Nat → List Char → Option Nat
  | 0, value, _ => some value
  | _ + 1, _, [] => none
  | count + 1, value, c :: cs =>
    (hexDigit? c).bind fun d => hexNumber? count (value * 16 + d) cs

def hexNumber : Nat → (value : Nat) → Cursor → Except Fault Nat
  | 0, value, _ => return value
  | count + 1, value, s => do
    match hexDigit? (← s.here) with
    | some d => hexNumber count (value * 16 + d) s.step
    | none => throw .malformed

/-- What a code point adds to a scalar, whose runes are kept from last to first while it is
read. -/
def addCode (text : List Rune) (code : Nat) : Except Fault (List Rune) :=
  if 0x110000 ≤ code then .error (.scalar (.codePoint code))
  else if h : isHalf code = true then .ok (.half code h :: text)
  else .ok (.char (Char.ofNat code) :: text)

def addChars (text : List Rune) (cs : List Char) : List Rune :=
  (cs.map Rune.char).reverseAux text

def isBlankChar (c : Char) : Bool :=
  c == ' ' || c == '\t'

/-- Blank lines up to the next character; a document marker must not come up. -/
def breaks : Nat → List Char → Cursor → Except Fault (List Char × Cursor)
  | 0, found, s => return (found, s)
  | fuel + 1, found, s => do
    if ← s.atDocumentMarker then throw .malformed
    else
      let s ← s.skip isBlankChar
      match ← s.takeBreak? with
      | some (c, after) => breaks fuel (found ++ [c]) after
      | none => return (found, s)

/-- Blanks inside a scalar: as they are on one line, folded over several. The bound is at
least the length of the rest of the text. -/
def spaces (bound : Nat) (s : Cursor) : Except Fault (List Char × Cursor) := do
  let (blanks, after) ← s.span isBlankChar
  match ← after.takeBreak? with
  | some (first, next) =>
    let (others, final) ← breaks bound [] next
    let folded :=
      if first ≠ '\n' then first :: others
      else if others.isEmpty then [' ']
      else others
    return (folded, final)
  | none => if after.rest.isEmpty then throw .malformed else return (blanks, after)

def escape (bound : Nat) (text : List Rune) (s : Cursor) :
    Except Fault (List Rune × Cursor) := do
  let c ← s.here
  match simpleEscape? c, codeLength? c with
  | some e, _ => return (addChars text [e], ← s.forward 1)
  | none, some length =>
    let s ← s.forward 1
    let text ← addCode text (← hexNumber length 0 s)
    return (text, ← s.forward length)
  | none, none =>
    match ← s.takeBreak? with
    | none => throw .malformed
    | some (_, next) =>
      let (others, final) ← breaks bound [] next
      return (addChars text others, final)

def body (bound : Nat) (double : Bool) :
    Nat → List Rune → Cursor → Except Fault (List Rune × Cursor)
  | 0, _, _ => throw .malformed
  | fuel + 1, text, s => do
    let c ← s.here
    if s.rest.isEmpty then throw .malformed
    else if double && c == '"' then return (text, ← s.forward 1)
    else if !double && c == '\'' then
      if (← s.peek 1) = '\'' then body bound double fuel (addChars text ['\'']) (← s.forward 2)
      else return (text, ← s.forward 1)
    else if double && c == '\\' then
      let (text, after) ← escape bound text (← s.forward 1)
      body bound double fuel text after
    else if isBlankChar c || isBreak c then
      let (blanks, after) ← spaces bound s
      body bound double fuel (addChars text blanks) after
    else body bound double fuel (addChars text [c]) (← s.forward 1)

def read (bound : Nat) (s : Cursor) : Except Fault (List Rune × Cursor) := do
  let double := (← s.here) == '"'
  let (text, after) ← body bound double bound [] (← s.forward 1)
  return (text.reverse, after)

end ClaimCheck.Yaml.Quoted
