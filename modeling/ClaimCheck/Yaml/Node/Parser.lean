import ClaimCheck.Yaml.Node
import ClaimCheck.Yaml.Timestamp
import ClaimCheck.Yaml.Token

namespace ClaimCheck.Yaml.Parser

/-- The tokens still to be read, the anchored nodes, what the handles of tags stand for, the
nodes so far and the number of levels that may still be opened. -/
structure State where
  tokens : List Token
  anchors : List (List Char × NodeId)
  handles : List (List Char × List Char)
  graph : Graph
  depth : Nat

abbrev Read (α : Type) := StateT State (Except Fault) α

def malformed {α : Type} : Read α :=
  throw .malformed

/-- The next token, which stays in its place. Reading on after a fault brings it up. -/
def peek : Read Token := do
  match (← get).tokens with
  | .fault f :: _ => throw f
  | t :: _ => return t
  | [] => throw .malformed

def next : Read Token := do
  let t ← peek
  modify fun s => { s with tokens := s.tokens.drop 1 }
  return t

def accept (t : Token) : Read Bool := do
  if (← peek) = t then
    let _ ← next
    return true
  else return false

def expect (t : Token) : Read Unit := do
  unless ← accept t do malformed

def anchor? : Read (Option (List Char)) := do
  match ← peek with
  | .anchor name =>
    let _ ← next
    return some name
  | _ => return none

def tag? : Read (Option (Option (List Char) × List Char)) := do
  match ← peek with
  | .tag handle suffix =>
    let _ ← next
    return some (handle, suffix)
  | _ => return none

def fullName : Option (List Char) × List Char → Read (List Char)
  | (none, suffix) => return suffix
  | (some handle, suffix) => do
    match (← get).handles.find? (·.1 == handle) with
    | some (_, opening) => return opening ++ suffix
    | none => malformed

def properties : Read (Option (List Char) × Option (List Char)) := do
  let first ← anchor?
  let tag ← tag?
  let anchor ← match first, tag with
    | none, some _ => anchor?
    | _, _ => pure first
  match tag with
  | some t => return (anchor, some (← fullName t))
  | none => return (anchor, none)

/-- The tag of a scalar: by its name, or by its form if it is plain or marked as plain. -/
def scalarTag (name : Option (List Char)) (text : List Text.Rune) (plain : Bool) : Tag :=
  match name with
  | none => if plain then Tag.ofPlain (Text.standIns text) else .str
  | some ['!'] => Tag.ofPlain (Form.withoutFinalBreak (Text.standIns text))
  | some name => Tag.ofName name

def collectionTag (name : Option (List Char)) (default : Tag) : Tag :=
  match name with
  | none => default
  | some ['!'] => default
  | some name => Tag.ofName name

def checkAnchor : Option (List Char) → Read Unit
  | none => return
  | some name => do
    if (← get).anchors.any (·.1 == name) then malformed

def addNode (anchor : Option (List Char)) (node : Node) : Read NodeId := do
  let s ← get
  let (graph, id) := s.graph.add node
  let anchors := match anchor with
    | some name => (name, id) :: s.anchors
    | none => s.anchors
  set { s with graph, anchors }
  return id

def addBlank : Read NodeId :=
  addNode none Node.blank

/-- Adds a collection, which has its anchor already while its parts are read. -/
def collection (anchor : Option (List Char)) (tag : Tag) (parts : Read Content) : Read NodeId := do
  let id ← addNode anchor ⟨tag, .sequence []⟩
  if (← get).depth = 0 then throw .nestedTooDeep
  modify fun s => { s with depth := s.depth - 1 }
  let content ← parts
  modify fun s => { s with depth := s.depth + 1, graph := s.graph.set id ⟨tag, content⟩ }
  return id

def aliased (name : List Char) : Read NodeId := do
  match (← get).anchors.find? (·.1 == name) with
  | some (_, id) => return id
  | none => malformed

def endsBlockEntry (t : Token) : Bool :=
  t == .key || t == .value || t == .blockEnd

mutual

/-- A node, in block context or in flow context; in the value of a mapping a sequence need
not be indented. -/
def node (block indentless : Bool) : Nat → Read NodeId
  | 0 => malformed
  | fuel + 1 => do
    match ← peek with
    | .alias name =>
      let _ ← next
      aliased name
    | _ =>
      let (anchor, name) ← properties
      let t ← peek
      checkAnchor anchor
      match t with
      | .scalar text plain =>
        let _ ← next
        addNode anchor ⟨scalarTag name text plain, .scalar text⟩
      | .flowSequenceStart =>
        let _ ← next
        collection anchor (collectionTag name .seq) (.sequence <$> flowItems true fuel)
      | .flowMappingStart =>
        let _ ← next
        collection anchor (collectionTag name .map) (.mapping <$> flowPairs true fuel)
      | _ =>
        if indentless && t == .blockEntry then
          collection anchor (collectionTag name .seq) (.sequence <$> indentlessItems fuel)
        else if block && t == .blockSequenceStart then
          let _ ← next
          collection anchor (collectionTag name .seq) (.sequence <$> blockItems fuel)
        else if block && t == .blockMappingStart then
          let _ ← next
          collection anchor (collectionTag name .map) (.mapping <$> blockPairs fuel)
        else if anchor.isSome || name.isSome then
          addNode anchor ⟨scalarTag name [] true, .scalar []⟩
        else malformed

def blockItems : Nat → Read (List NodeId)
  | 0 => malformed
  | fuel + 1 => do
    if ← accept .blockEntry then
      let t ← peek
      let item ←
        if t = .blockEntry ∨ t = .blockEnd then addBlank else node true false fuel
      return item :: (← blockItems fuel)
    else
      expect .blockEnd
      return []

def indentlessItems : Nat → Read (List NodeId)
  | 0 => malformed
  | fuel + 1 => do
    if ← accept .blockEntry then
      let t ← peek
      let item ←
        if t = .blockEntry || endsBlockEntry t then addBlank
        else node true false fuel
      return item :: (← indentlessItems fuel)
    else return []

/-- A key or a value of a block mapping, which may be left out. -/
def blockPart : Nat → Read NodeId
  | 0 => malformed
  | fuel + 1 => do
    if endsBlockEntry (← peek) then addBlank else node true true fuel

def blockPairs : Nat → Read (List (NodeId × NodeId))
  | 0 => malformed
  | fuel + 1 => do
    let t ← peek
    if t = .blockEnd then
      let _ ← next
      return []
    else
      expect .key
      let key ← blockPart fuel
      let value ← if ← accept .value then blockPart fuel else addBlank
      return (key, value) :: (← blockPairs fuel)

/-- A key or a value in flow context, which may be left out before given tokens. -/
def flowPart (closing : List Token) : Nat → Read NodeId
  | 0 => malformed
  | fuel + 1 => do
    if closing.contains (← peek) then addBlank else node false false fuel

/-- A single pair as an item of a flow sequence, after the mark of its key. -/
def flowPair : Nat → Read Content
  | 0 => malformed
  | fuel + 1 => do
    let key ← flowPart [.value, .flowEntry, .flowSequenceEnd] fuel
    let value ←
      if ← accept .value then flowPart [.flowEntry, .flowSequenceEnd] fuel else addBlank
    return .mapping [(key, value)]

def flowItems (first : Bool) : Nat → Read (List NodeId)
  | 0 => malformed
  | fuel + 1 => do
    if ← accept .flowSequenceEnd then return []
    else
      unless first do expect .flowEntry
      if ← accept .flowSequenceEnd then return []
      else
        let item ←
          if ← accept .key then collection none .map (flowPair fuel) else node false false fuel
        return item :: (← flowItems false fuel)

def flowPairs (first : Bool) : Nat → Read (List (NodeId × NodeId))
  | 0 => malformed
  | fuel + 1 => do
    if ← accept .flowMappingEnd then return []
    else
      unless first do expect .flowEntry
      if ← accept .flowMappingEnd then return []
      else if ← accept .key then
        let key ← flowPart [.value, .flowEntry, .flowMappingEnd] fuel
        let value ←
          if ← accept .value then flowPart [.flowEntry, .flowMappingEnd] fuel
          else addBlank
        return (key, value) :: (← flowPairs false fuel)
      else
        let key ← node false false fuel
        let value ← addBlank
        return (key, value) :: (← flowPairs false fuel)

end

def commonHandles : List (List Char × List Char) :=
  [(['!'], ['!']), (['!', '!'], Tag.commonOpening)]

/-- The directives before a document: a version at most once, and handles once each. -/
def directives : Nat → (version : Bool) → List (List Char × List Char) →
    Read (List (List Char × List Char))
  | 0, _, _ => malformed
  | fuel + 1, version, handles => do
    match ← peek with
    | .directive d =>
      let _ ← next
      match d with
      | .version major _ =>
        if version || major != 1 then malformed else directives fuel true handles
      | .tag handle opening =>
        if handles.any (·.1 == handle) then malformed
        else directives fuel version ((handle, opening) :: handles)
      | .reserved => directives fuel version handles
    | _ => return handles

def documentEnds : Nat → Read Unit
  | 0 => malformed
  | fuel + 1 => do
    if ← accept .documentEnd then documentEnds fuel

def isBare : Token → Bool
  | .directive _ | .documentStart | .documentEnd | .streamEnd => true
  | _ => false

def document (explicit : Bool) (fuel : Nat) : Read NodeId := do
  let body ←
    if explicit then do
      let handles ← directives fuel false []
      expect .documentStart
      modify fun s => { s with handles := handles ++ commonHandles }
      if isBare (← peek) then addBlank else node true false fuel
    else node true false fuel
  let _ ← accept .documentEnd
  return body

/-- The root of the only document of a stream, if there is a document. A second one must not
even be announced. -/
def stream (fuel : Nat) : Read (Option NodeId) := do
  let explicit := match ← peek with
    | .directive _ | .documentStart => true
    | _ => false
  if (← peek) = .streamEnd then return none
  let body ← document explicit fuel
  documentEnds fuel
  if (← peek) = .streamEnd then return some body
  else
    let _ ← directives fuel false []
    malformed

end Parser

def Document.ofTokens (depths : Depths) (tokens : List Token) : Except Fault (Option Document) := do
  let start : Parser.State := ⟨tokens, [], Parser.commonHandles, .empty, depths.read⟩
  let (root, final) ← (Parser.stream (4 * tokens.length + 16)).run start
  return root.map (⟨final.graph, ·⟩)

end ClaimCheck.Yaml
