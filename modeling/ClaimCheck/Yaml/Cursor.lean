import ClaimCheck.Text.Stream
import ClaimCheck.Yaml.Token
/-!
A place in a document, counted by characters and by lines and columns. The end is seen as a null
character, which no document holds. The text itself comes in portions, each of which is looked
through for characters that no document may hold, and the first two come at once.
-/
namespace ClaimCheck.Yaml

def isAllowed (c : Char) : Bool :=
  let n := c.toNat
  n == 9 || n == 10 || n == 13 || (0x20 ≤ n && n ≤ 0x7e) || n == 0x85
    || (0xa0 ≤ n && n ≤ 0xfffd) || 0x10000 ≤ n

def byteOrderMark : Char := Char.ofNat 0xfeff

def nextLine : Char := Char.ofNat 0x85

def theEnd : Char := Char.ofNat 0

def isBreak (c : Char) : Bool :=
  c == '\n' || c == nextLine || c.toNat == 0x2028 || c.toNat == 0x2029

def isBreakOrEnd (c : Char) : Bool :=
  isBreak c || c == theEnd

def isSpaceOrEnd (c : Char) : Bool :=
  c == ' ' || isBreakOrEnd c

def isGap (c : Char) : Bool :=
  c == '\t' || isSpaceOrEnd c

def isWordChar (c : Char) : Bool :=
  ('0' ≤ c && c ≤ '9') || ('A' ≤ c && c ≤ 'Z') || ('a' ≤ c && c ≤ 'z') || c == '-' || c == '_'

/-- A place in a text: what is left of it, and whether it goes on where that ends, so that no more of
it can be had. -/
structure Cursor where
  rest : List Char
  brokenOff : Bool
  index : Nat
  line : Nat
  column : Nat
  deriving DecidableEq, Repr

namespace Cursor

def atStart (text : List Char) (brokenOff : Bool) : Cursor := ⟨text, brokenOff, 0, 0, 0⟩

/-- The character a number of places ahead, which has to be there to be looked at. -/
def peek (s : Cursor) (ahead : Nat) : Except Fault Char :=
  match s.rest.drop ahead with
  | c :: _ => .ok c
  | [] => if s.brokenOff then .error .brokenOff else .ok theEnd

def here (s : Cursor) : Except Fault Char :=
  s.peek 0

/-- The cursor after one more character. A byte order mark takes no column. -/
def step (s : Cursor) : Cursor :=
  match s.rest with
  | [] => s
  | c :: cs =>
    let s := { s with rest := cs, index := s.index + 1 }
    if isBreak c then { s with line := s.line + 1, column := 0 }
    else if c = byteOrderMark then s
    else { s with column := s.column + 1 }

def advance : Nat → Cursor → Cursor
  | 0, s => s
  | n + 1, s => advance n s.step

/-- Passes over some characters. The one behind them has to be there too. -/
def forward (s : Cursor) (n : Nat) : Except Fault Cursor := do
  let _ ← s.peek n
  return s.advance n

def span (s : Cursor) (p : Char → Bool) : Except Fault (List Char × Cursor) := do
  let found := s.rest.takeWhile p
  return (found, ← s.forward found.length)

def skip (s : Cursor) (p : Char → Bool) : Except Fault Cursor := do
  return (← s.span p).2

def skipSpaces (s : Cursor) : Except Fault Cursor :=
  s.skip (· == ' ')

def skipComment (s : Cursor) : Except Fault Cursor := do
  if (← s.here) = '#' then s.skip fun c => !isBreak c else return s

/-- The break that ends the line here and the cursor after it. The common breaks count as
line feeds. -/
def takeBreak? (s : Cursor) : Except Fault (Option (Char × Cursor)) := do
  let c ← s.here
  if isBreak c then return some (if c = nextLine then '\n' else c, ← s.forward 1) else return none

def atMarker (s : Cursor) (mark : Char) : Except Fault Bool := do
  let _ ← s.peek 2
  if s.rest.take 3 == [mark, mark, mark] then return isGap (← s.peek 3) else return false

/-- Whether a document starts or ends here, provided that this is the start of a line. -/
def atDocumentMarker (s : Cursor) : Except Fault Bool := do
  if ← s.atMarker '-' then return true else s.atMarker '.'

end Cursor

/-- Why no more of a text can be had. -/
inductive Gap where
  | undecodable (error : Text.Utf8Error)
  | notAllowed
  deriving DecidableEq, Repr

structure Source where
  text : List Char
  gap : Option Gap
  deriving DecidableEq, Repr

namespace Source

def ofPortions : List (List Char) → Option Gap → Source
  | [], gap => ⟨[], gap⟩
  | portion :: rest, gap =>
    if portion.all isAllowed then
      let after := ofPortions rest gap
      { after with text := portion ++ after.text }
    else ⟨[], some .notAllowed⟩

/-- The source in the portions that come before an error, if there is one. An error in the second
portion is met before anything is read. -/
def ofDelivery : List (List Char) → Option Gap → Source
  | first :: second :: rest, gap => ofPortions ((first ++ second) :: rest) gap
  | portions, none => ofPortions portions none
  | _, some gap => ⟨[], some gap⟩

def ofBytes (bytes : List UInt8) : Source :=
  let (portions, error) := Text.portionsOf bytes
  ofDelivery portions (error.map .undecodable)

end Source

end ClaimCheck.Yaml
