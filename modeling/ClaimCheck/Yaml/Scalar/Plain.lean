import ClaimCheck.Yaml.Cursor
/-!
Plain scalars. A run of characters ends at a gap, at a colon before a gap, and in flow
context at the marks of flow collections; runs are joined over spaces and folded lines.
-/
namespace ClaimCheck.Yaml.Plain

def stops (inFlow : Bool) (s : Cursor) : Except Fault Bool := do
  let c ← s.here
  if isGap c || (inFlow && [',', '?', '[', ']', '{', '}'].contains c) then return true
  else if c = ':' then
    let next ← s.peek 1
    return isGap next || (inFlow && [',', '[', ']', '{', '}'].contains next)
  else return false

/-- The characters of a run from last to first, and the cursor behind it. -/
def run (inFlow : Bool) : Nat → (reversed : List Char) → Cursor → Except Fault (List Char × Cursor)
  | 0, reversed, s => return (reversed, s)
  | fuel + 1, reversed, s => do
    if ← stops inFlow s then return (reversed, s)
    else run inFlow fuel ((← s.here) :: reversed) s.step

/-- What lies between two runs: the characters that it stands for, none if the scalar ends
here, and whether a line ended. -/
structure Space where
  chars : List Char
  newLine : Bool
  after : Cursor
  deriving Repr

/-- Spaces and further breaks after the first one; nothing if a document marker comes up. -/
def breaks : Nat → List Char → Cursor → Except Fault (Option (List Char) × Cursor)
  | 0, found, s => return (some found, s)
  | fuel + 1, found, s => do
    if (← s.here) = ' ' then breaks fuel found (← s.forward 1)
    else
      match ← s.takeBreak? with
      | none => return (some found, s)
      | some (c, after) =>
        if ← after.atDocumentMarker then return (none, after)
        else breaks fuel (found ++ [c]) after

def fold (first : Char) (others : List Char) : List Char :=
  if first ≠ '\n' then first :: others
  else if others.isEmpty then [' ']
  else others

/-- The space after a run. The bound is at least the length of the rest of the text. -/
def space (bound : Nat) (s : Cursor) : Except Fault Space := do
  let (blanks, after) ← s.span (· == ' ')
  match ← after.takeBreak? with
  | none => return ⟨blanks, false, after⟩
  | some (first, next) =>
    if ← next.atDocumentMarker then return ⟨[], true, next⟩
    else
      match ← breaks bound [] next with
      | (some others, final) => return ⟨fold first others, true, final⟩
      | (none, final) => return ⟨[], true, final⟩

/-- A scalar read so far: its characters from last to first, whether its last space ended
a line, and where it stops. -/
structure Reading where
  reversed : List Char
  newLine : Bool
  after : Cursor
  deriving Repr

def runs (bound : Nat) (inFlow : Bool) (indent : Int) :
    Nat → (pending : List Char) → Reading → Except Fault Reading
  | 0, _, r => return r
  | fuel + 1, pending, r => do
    if (← r.after.here) = '#' then return r
    else
      let (word, after) ← run inFlow bound [] r.after
      if word.isEmpty then return r
      else
        let between ← space bound after
        let read : Reading := ⟨word ++ pending.reverseAux r.reversed, between.newLine, between.after⟩
        if between.chars.isEmpty then return read
        else if (← between.after.here) = '#'
            || (!inFlow && (between.after.column : Int) < indent) then return read
        else runs bound inFlow indent fuel between.chars read

def read (bound : Nat) (inFlow : Bool) (indent : Int) (s : Cursor) : Except Fault Reading :=
  runs bound inFlow (indent + 1) bound [] ⟨[], false, s⟩

end ClaimCheck.Yaml.Plain
