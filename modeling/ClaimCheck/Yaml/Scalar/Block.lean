import ClaimCheck.Yaml.Cursor

namespace ClaimCheck.Yaml.Block

inductive Chomping where
  | clip
  | strip
  | keep
  deriving DecidableEq, Repr

structure Header where
  chomping : Chomping
  increment : Option Nat
  deriving DecidableEq, Repr

def chompingOf? : Char → Option Chomping
  | '+' => some .keep
  | '-' => some .strip
  | _ => none

def incrementOf? (c : Char) : Option Nat :=
  if '0' ≤ c ∧ c ≤ '9' then some (c.toNat - 48) else none

def chomping? (s : Cursor) : Except Fault (Option (Chomping × Cursor)) := do
  match chompingOf? (← s.here) with
  | some chomping => return some (chomping, ← s.forward 1)
  | none => return none

def increment? (s : Cursor) : Except Fault (Option (Nat × Cursor)) := do
  match incrementOf? (← s.here) with
  | some 0 => throw .malformed
  | some n => return some (n, ← s.forward 1)
  | none => return none

def header (s : Cursor) : Except Fault (Header × Cursor) := do
  let (found, after) ← match ← chomping? s with
    | some (chomping, s) =>
      match ← increment? s with
      | some (n, after) => pure (Header.mk chomping (some n), after)
      | none => pure (Header.mk chomping none, s)
    | none =>
      match ← increment? s with
      | some (n, s) =>
        match ← chomping? s with
        | some (chomping, after) => pure (Header.mk chomping (some n), after)
        | none => pure (Header.mk .clip (some n), s)
      | none => pure (Header.mk .clip none, s)
  if isSpaceOrEnd (← after.here) then return (found, after) else throw .malformed

/-- The rest of a line that may hold only spaces and a comment. -/
def ignoredLine (s : Cursor) : Except Fault Cursor := do
  let after ← (← s.skipSpaces).skipComment
  match ← after.takeBreak? with
  | some (_, next) => return next
  | none => if after.rest.isEmpty then return after else throw .malformed

/-- Blank lines before the text, with the deepest column that their spaces reach. -/
def leading : Nat → (found : List Char) → (deepest : Nat) → Cursor →
    Except Fault (List Char × Nat × Cursor)
  | 0, found, deepest, s => return (found, deepest, s)
  | fuel + 1, found, deepest, s => do
    match ← s.takeBreak? with
    | some (c, after) => leading fuel (found ++ [c]) deepest after
    | none =>
      if (← s.here) = ' ' then
        let after ← s.forward 1
        leading fuel found (max deepest after.column) after
      else return (found, deepest, s)

def indentTo : Nat → Nat → Cursor → Except Fault Cursor
  | 0, _, s => return s
  | fuel + 1, column, s => do
    if s.column < column then
      if (← s.here) = ' ' then indentTo fuel column (← s.forward 1) else return s
    else return s

def blankLines (indent : Nat) : Nat → (found : List Char) → Cursor →
    Except Fault (List Char × Cursor)
  | 0, found, s => return (found, s)
  | fuel + 1, found, s => do
    let s ← indentTo indent indent s
    match ← s.takeBreak? with
    | some (c, after) => blankLines indent fuel (found ++ [c]) after
    | none => return (found, s)

/-- The text so far from last to first, the break after its last line, and the blank lines
after that. -/
structure Lines where
  reversed : List Char
  lastBreak : List Char
  blank : List Char
  after : Cursor
  deriving Repr

def continues (indent : Nat) (s : Cursor) : Except Fault Bool := do
  if s.column = indent then
    let _ ← s.here
    return !s.rest.isEmpty
  else return false

def startsBlank (s : Cursor) : Bool :=
  s.rest.head? == some ' ' || s.rest.head? == some '\t'

/-- The lines of a scalar with the given indentation. The bound is at least the length of
the rest of the text. -/
def lines (bound : Nat) (folded : Bool) (indent : Nat) : Nat → Lines → Except Fault Lines
  | 0, r => return r
  | fuel + 1, r => do
    if !(← continues indent r.after) then return r
    else
      let (line, final) ← r.after.span fun c => !isBreak c
      let (lastBreak, next) ← match ← final.takeBreak? with
        | some (c, next) => pure ([c], next)
        | none => pure ([], final)
      let (blank, after) ← blankLines indent bound [] next
      let text := line.reverseAux (r.blank.reverseAux r.reversed)
      if ← continues indent after then
        let joined := folded && lastBreak == ['\n'] && !startsBlank r.after && !startsBlank after
        let between := if joined then (if blank.isEmpty then [' '] else []) else lastBreak
        lines bound folded indent fuel ⟨between.reverseAux text, lastBreak, blank, after⟩
      else return ⟨text, lastBreak, blank, after⟩

def read (bound : Nat) (indent : Int) (s : Cursor) : Except Fault (List Char × Cursor) := do
  let folded := (← s.here) == '>'
  let (h, s) ← header (← s.forward 1)
  let s ← ignoredLine s
  let least := (max (indent + 1) 1).toNat
  let (start, column) : Lines × Nat ← match h.increment with
    | none => do
      let (blank, deepest, after) ← leading bound [] 0 s
      pure (⟨[], [], blank, after⟩, max least deepest)
    | some n => do
      let (blank, after) ← blankLines (least + n - 1) bound [] s
      pure (⟨[], [], blank, after⟩, least + n - 1)
  let r ← lines bound folded column bound start
  let ending := match h.chomping with
    | .strip => []
    | .clip => r.lastBreak
    | .keep => r.lastBreak ++ r.blank
  return (r.reversed.reverse ++ ending, r.after)

end ClaimCheck.Yaml.Block
