import ClaimCheck.Text.Utf8
import ClaimCheck.Yaml.Number
import ClaimCheck.Yaml.Scalar.Block
import ClaimCheck.Yaml.Scalar.Plain
import ClaimCheck.Yaml.Scalar.Quoted
import ClaimCheck.Yaml.Cursor
/-!
From characters to tokens. A key of a mapping is known as such only when its colon comes
up; until then the place of its token is remembered for each flow level, and the marks of
the key are put in there afterwards.
-/
namespace ClaimCheck.Yaml.Lexer

/-- A token that may turn out to be a key. A required one must. -/
structure KeyPlace where
  level : Nat
  position : Nat
  required : Bool
  start : Cursor
  deriving Repr

/-- The cursor, the tokens so far, the depth of flow collections, the columns of block
collections from the innermost out, and the places of possible keys. No loop takes more
steps than the bound, which exceeds the length of the text. -/
structure State where
  bound : Nat
  cursor : Cursor
  tokens : Array Token
  level : Nat
  indent : Int
  outer : List Int
  keyAllowed : Bool
  places : List KeyPlace
  deriving Repr

def State.push (s : State) (t : Token) : State :=
  { s with tokens := s.tokens.push t }

def State.insertAt (s : State) (position : Nat) (t : Token) : State :=
  { s with tokens := s.tokens.insertIdxIfInBounds position t }

/-- Skips spaces, comments and breaks. Outside flow context a break allows a key again. -/
def skipBlank : Nat → State → Except Fault State
  | 0, s => return s
  | fuel + 1, s => do
    let cursor ← (← s.cursor.skipSpaces).skipComment
    match ← cursor.takeBreak? with
    | some (_, next) =>
      skipBlank fuel
        { s with cursor := next, keyAllowed := s.keyAllowed || s.level == 0 }
    | none => return { s with cursor }

/-- Whether a place can no longer become a key: its line has ended or it is too long. -/
def KeyPlace.isStale (cursor : Cursor) (p : KeyPlace) : Bool :=
  p.start.line != cursor.line || 1024 < cursor.index - p.start.index

def dropStale (s : State) : Except Fault State :=
  if s.places.any fun p => p.isStale s.cursor && p.required then .error .malformed
  else .ok { s with places := s.places.filter fun p => !p.isStale s.cursor }

def forgetPlace (s : State) : Except Fault State :=
  if s.places.any fun p => p.level == s.level && p.required then .error .malformed
  else .ok { s with places := s.places.filter fun p => p.level != s.level }

def rememberPlace (s : State) : Except Fault State :=
  if !s.keyAllowed then .ok s
  else do
    let required := s.level == 0 && s.indent == s.cursor.column
    let s ← forgetPlace s
    return { s with places := ⟨s.level, s.tokens.size, required, s.cursor⟩ :: s.places }

def unwind (column : Int) : List Int → State → State
  | [], s => s
  | outer :: rest, s =>
    if column < s.indent then
      unwind column rest { s.push .blockEnd with indent := outer, outer := rest }
    else s

def closeBlocks (s : State) (column : Int) : State :=
  if s.level = 0 then unwind column s.outer s else s

def openBlock (s : State) (column position : Nat) (t : Token) : State :=
  if s.indent < column then
    { s.insertAt position t with indent := column, outer := s.indent :: s.outer }
  else s

def openHere (s : State) (t : Token) : Except Fault State :=
  if s.level ≠ 0 then .ok s
  else if !s.keyAllowed then .error .malformed
  else .ok (openBlock s s.cursor.column s.tokens.size t)

def single (s : State) (t : Token) : Except Fault State := do
  return { s.push t with cursor := ← s.cursor.forward 1 }

def streamEnd (s : State) : Except Fault State := do
  let s ← forgetPlace (closeBlocks s (-1))
  return { s with places := [] }.push .streamEnd

def documentMark (s : State) (t : Token) : Except Fault State := do
  let s ← forgetPlace (closeBlocks s (-1))
  return { s with keyAllowed := false, cursor := ← s.cursor.forward 3 }.push t

def flowStart (s : State) (t : Token) : Except Fault State := do
  let s ← rememberPlace s
  single { s with level := s.level + 1, keyAllowed := true } t

/-- The end of a flow collection. Without a start it is passed over before it counts as a fault. -/
def flowEnd (s : State) (t : Token) : Except Fault State := do
  let s ← forgetPlace s
  let next ← single { s with level := s.level - 1, keyAllowed := false } t
  if s.level = 0 then throw .malformed else return next

def flowEntry (s : State) : Except Fault State := do
  let s ← forgetPlace { s with keyAllowed := true }
  single s .flowEntry

def blockEntry (s : State) : Except Fault State := do
  let s ← openHere s .blockSequenceStart
  let s ← forgetPlace { s with keyAllowed := true }
  single s .blockEntry

def keyMark (s : State) : Except Fault State := do
  let s ← openHere s .blockMappingStart
  let s ← forgetPlace { s with keyAllowed := s.level == 0 }
  single s .key

/-- A colon: the remembered token is a key, or the key is empty. -/
def valueMark (s : State) : Except Fault State :=
  match s.places.find? (·.level == s.level) with
  | some place =>
    let places := s.places.filter (·.level != s.level)
    let s := { s with places, keyAllowed := false }.insertAt place.position .key
    let s :=
      if s.level = 0 then openBlock s place.start.column place.position .blockMappingStart else s
    single s .value
  | none => do
    let s ← openHere s .blockMappingStart
    let s ← forgetPlace { s with keyAllowed := s.level == 0 }
    single s .value

def graveAccent : Char := Char.ofNat 0x60

def anchorName (s : Cursor) : Except Fault (List Char × Cursor) := do
  let s ← s.forward 1
  let (name, after) ← s.span isWordChar
  let next ← after.here
  let follows := isGap next || ['?', ':', ',', ']', '}', '%', '@', graveAccent].contains next
  if name.isEmpty || !follows then throw .malformed else return (name, after)

def isUriChar (c : Char) : Bool :=
  isWordChar c || ";/?:@&=+$,.!~*'()[]%".toList.contains c

def uriBytes : Nat → Cursor → Except Fault (List UInt8 × Cursor)
  | 0, _ => throw .malformed
  | fuel + 1, s => do
    if (← s.here) ≠ '%' then return ([], s)
    else
      let s ← s.forward 1
      let n ← Quoted.hexNumber 2 0 s
      let (bytes, after) ← uriBytes fuel (← s.forward 2)
      return (n.toUInt8 :: bytes, after)

def uriChars : Nat → Cursor → Except Fault (List Char × Cursor)
  | 0, _ => throw .malformed
  | fuel + 1, s => do
    let c ← s.here
    if !isUriChar c then return ([], s)
    else if c = '%' then
      let (bytes, after) ← uriBytes (s.rest.length + 1) s
      match Text.decodeFrom 0 .none bytes with
      | .error _ => throw .malformed
      | .ok chars =>
        let (more, final) ← uriChars fuel after
        return (chars ++ more, final)
    else
      let (more, final) ← uriChars fuel (← s.forward 1)
      return (c :: more, final)

def uri (s : Cursor) : Except Fault (List Char × Cursor) := do
  let escaped := (← s.here) = '%'
  let (chars, after) ← uriChars (s.rest.length + 1) s
  if !escaped && chars.isEmpty then throw .malformed else return (chars, after)

/-- The handle of a tag: marks alone, or a word between two of them. -/
def handle (s : Cursor) : Except Fault (List Char × Cursor) := do
  if (← s.here) ≠ '!' then throw .malformed
  else if (← s.peek 1) = ' ' then return (['!'], ← s.forward 1)
  else
    let (word, after) ← (← s.forward 1).span isWordChar
    if (← after.here) = '!' then return ('!' :: word ++ ['!'], ← after.forward 1)
    else throw .malformed

def hasHandle (s : Cursor) : Except Fault Bool := do
  let (_, after) ← (← s.forward 1).span fun c => !isSpaceOrEnd c && c != '!'
  return (← after.here) = '!'

def tagHere (s : Cursor) : Except Fault (Token × Cursor) := do
  let next ← s.peek 1
  if next = '<' then
    let (suffix, after) ← uri (← s.forward 2)
    if (← after.here) ≠ '>' then throw .malformed else return (.tag none suffix, ← after.forward 1)
  else if isGap next then return (.tag none ['!'], ← s.forward 1)
  else if ← hasHandle s then
    let (name, after) ← handle s
    let (suffix, after) ← uri after
    return (.tag (some name) suffix, after)
  else
    let (suffix, after) ← uri (← s.forward 1)
    return (.tag (some ['!']) suffix, after)

def tag (s : Cursor) : Except Fault (Token × Cursor) := do
  let (t, after) ← tagHere s
  if isSpaceOrEnd (← after.here) then return (t, after) else throw .malformed

def naturalOf (digits : List Char) : Nat :=
  digits.foldl (fun n c => n * 10 + (c.toNat - 48)) 0

def versionNumber (s : Cursor) : Except Fault (Nat × Cursor) := do
  let (digits, after) ← s.span fun c => '0' ≤ c && c ≤ '9'
  if digits.isEmpty then throw .malformed
  else if Number.maxDigits < digits.length then throw (.scalar (.tooLong digits.length))
  else return (naturalOf digits, after)

def versionDirective (s : Cursor) : Except Fault (Directive × Cursor) := do
  let (major, after) ← versionNumber (← s.skipSpaces)
  if (← after.here) ≠ '.' then throw .malformed
  else
    let (minor, after) ← versionNumber (← after.forward 1)
    if isSpaceOrEnd (← after.here) then return (.version major minor, after)
    else throw .malformed

def tagDirective (s : Cursor) : Except Fault (Directive × Cursor) := do
  let (name, after) ← handle (← s.skipSpaces)
  if (← after.here) ≠ ' ' then throw .malformed
  else
    let (opening, after) ← uri (← after.skipSpaces)
    if isSpaceOrEnd (← after.here) then return (.tag name opening, after) else throw .malformed

def directiveNamed (name : List Char) (after : Cursor) : Except Fault (Directive × Cursor) := do
  if name = "YAML".toList then versionDirective after
  else if name = "TAG".toList then tagDirective after
  else return (.reserved, ← after.skip fun c => !isBreak c)

def directive (s : Cursor) : Except Fault (Directive × Cursor) := do
  let (name, after) ← (← s.forward 1).span isWordChar
  if name.isEmpty || !isSpaceOrEnd (← after.here) then throw .malformed
  else
    let (d, after) ← directiveNamed name after
    return (d, ← Block.ignoredLine after)

def fetchDirective (s : State) : Except Fault State := do
  let s ← forgetPlace (closeBlocks s (-1))
  let (d, cursor) ← directive s.cursor
  return { s with keyAllowed := false, cursor }.push (.directive d)

def fetchNode (s : State) (read : Cursor → Except Fault (Token × Cursor)) :
    Except Fault State := do
  let s ← rememberPlace s
  let (t, cursor) ← read s.cursor
  return { s with keyAllowed := false, cursor }.push t

def fetchBlockScalar (s : State) : Except Fault State := do
  let s ← forgetPlace { s with keyAllowed := true }
  let (chars, cursor) ← Block.read s.bound s.indent s.cursor
  return { s with cursor }.push (.scalar (chars.map .char) false)

def fetchPlain (s : State) : Except Fault State := do
  let s ← rememberPlace s
  let r ← Plain.read s.bound (s.level != 0) s.indent s.cursor
  return { s with keyAllowed := r.newLine, cursor := r.after }.push
    (.scalar (r.reversed.reverse.map .char) true)

def indicators : List Char :=
  graveAccent :: "-?:,[]\x7b\x7d#&*!|>'\"%@".toList

def startsPlain (s : State) (c : Char) : Except Fault Bool := do
  if !isGap c && !indicators.contains c then return true
  else
    let gapNext := isGap (← s.cursor.peek 1)
    return !gapNext && (c == '-' || (s.level == 0 && (c == '?' || c == ':')))

/-- Whether a mark stands here: in flow context anywhere, outside of it only before a gap. -/
def marks (s : State) : Except Fault Bool := do
  if s.level = 0 then return isGap (← s.cursor.peek 1) else return true

def fetchFrom (s : State) (c : Char) : Except Fault State := do
  let atLineStart := s.cursor.column == 0
  if s.cursor.rest.isEmpty then streamEnd s
  else if c == '%' && atLineStart then fetchDirective s
  else if ← pure (c == '-' && atLineStart) <&&> s.cursor.atMarker '-' then documentMark s .documentStart
  else if ← pure (c == '.' && atLineStart) <&&> s.cursor.atMarker '.' then documentMark s .documentEnd
  else if c == '[' then flowStart s .flowSequenceStart
  else if c == '{' then flowStart s .flowMappingStart
  else if c == ']' then flowEnd s .flowSequenceEnd
  else if c == '}' then flowEnd s .flowMappingEnd
  else if c == ',' then flowEntry s
  else if ← pure (c == '-') <&&> isGap <$> s.cursor.peek 1 then blockEntry s
  else if ← pure (c == '?') <&&> marks s then keyMark s
  else if ← pure (c == ':') <&&> marks s then valueMark s
  else if c == '*' then fetchNode s fun cursor => do
    let (name, after) ← anchorName cursor
    return (.alias name, after)
  else if c == '&' then fetchNode s fun cursor => do
    let (name, after) ← anchorName cursor
    return (.anchor name, after)
  else if c == '!' then fetchNode s tag
  else if (c == '|' || c == '>') && s.level == 0 then fetchBlockScalar s
  else if c == '\'' || c == '"' then fetchNode s fun cursor => do
    let (text, after) ← Quoted.read s.bound cursor
    return (.scalar text false, after)
  else if ← startsPlain s c then fetchPlain s
  else throw .malformed

/-- Reads on for one token. Whether a place can still become a key is settled first. -/
def fetch (s : State) : Except Fault State := do
  let s ← dropStale s
  let s ← dropStale (← skipBlank s.bound s)
  let s := closeBlocks s s.cursor.column
  fetchFrom s (← s.cursor.here)

/-- The number of tokens that are given out before the next one is read. A token that may
still turn out to be a key is held back, with all that follow it. -/
def settledCount (s : State) : Nat :=
  let held := s.places.filter fun p => p.required || !p.isStale s.cursor
  (held.map (·.position)).foldl min s.tokens.size

def stopAt (s : State) (fault : Fault) : Array Token :=
  (s.tokens.extract 0 (settledCount s)).push (.fault fault)

/-- Reads tokens up to the end or to the first fault, which becomes the last token. -/
def fetchAll : Nat → State → Array Token
  | 0, s => stopAt s .malformed
  | fuel + 1, s =>
    if s.tokens.back? == some .streamEnd then s.tokens
    else
      match fetch s with
      | .ok s => fetchAll fuel s
      | .error fault => stopAt s fault

end Lexer

/-- The tokens of a text. A byte order mark at its start is passed over. -/
def Token.scan (source : Source) : List Token :=
  let start := Cursor.atStart source.text source.gap.isSome
  let cursor := if source.text.head? = some byteOrderMark then start.step else start
  let bound := source.text.length + 2
  (Lexer.fetchAll bound ⟨bound, cursor, #[], 0, -1, [], true, []⟩).toList

end ClaimCheck.Yaml
