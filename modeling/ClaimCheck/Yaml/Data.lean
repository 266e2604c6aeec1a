import ClaimCheck.Value.Equality
import ClaimCheck.Yaml.Node
import ClaimCheck.Yaml.Node.Parser
import ClaimCheck.Yaml.Number
import ClaimCheck.Yaml.Token.Lexer
/-!
From nodes to values. A node is made once, whatever refers to it. A scalar is made where it
is met; a collection is only noted there and filled later, in the order of the notes. So of
several faults the one nearest to the root is found first, and the first one in order on the
same level.
-/
namespace ClaimCheck.Yaml
open Text (Rune)

namespace Base64

def sextet? (c : Char) : Option Nat :=
  if 'A' ≤ c ∧ c ≤ 'Z' then some (c.toNat - 65)
  else if 'a' ≤ c ∧ c ≤ 'z' then some (c.toNat - 71)
  else if '0' ≤ c ∧ c ≤ '9' then some (c.toNat + 4)
  else if c = '+' then some 62
  else if c = '/' then some 63
  else none

/-- The bits left over from the last sextet, how many sextets of the group are read, and
how much padding was seen since. -/
structure Group where
  bits : Nat
  count : Nat
  padding : Nat

/-- The bytes of the rest of a text after part of a group; none if a group stays open. -/
def decodeFrom (g : Group) : List Char → Option (List UInt8)
  | [] => if g.count = 0 then some [] else none
  | c :: cs =>
    if c = '=' then
      if 2 ≤ g.count then
        if 4 ≤ g.count + g.padding + 1 then some []
        else decodeFrom { g with padding := g.padding + 1 } cs
      else decodeFrom g cs
    else
      match sextet? c with
      | none => decodeFrom g cs
      | some n =>
        match g.count with
        | 0 => decodeFrom ⟨n, 1, 0⟩ cs
        | 1 => (decodeFrom ⟨n % 16, 2, 0⟩ cs).map ((g.bits * 4 + n / 16).toUInt8 :: ·)
        | 2 => (decodeFrom ⟨n % 4, 3, 0⟩ cs).map ((g.bits * 16 + n / 4).toUInt8 :: ·)
        | _ => (decodeFrom ⟨0, 0, 0⟩ cs).map ((g.bits * 64 + n).toUInt8 :: ·)

def decode? (cs : List Char) : Option (List UInt8) :=
  if cs.all fun c => c.toNat < 128 then decodeFrom ⟨0, 0, 0⟩ cs else none

end Base64

inductive Parts where
  | items (items : List NodeId)
  | pairs (pairs : List (NodeId × NodeId))
  | members (members : List NodeId)
  | entries (entries : List (NodeId × NodeId))
  deriving Repr

inductive Made where
  | scalar (value : Value)
  | collection (parts : Parts)
  deriving Repr

/-- The graph, what has been made of its nodes, and the collections that are noted but not
yet filled, from the last one to the first. -/
structure Making where
  graph : Graph
  made : Array (Option Made)
  noted : List NodeId
  deriving Repr

abbrev Make (α : Type) := StateT Making (Except Fault) α

def truthOf (text : List Rune) : Except ScalarFlaw Bool :=
  let small := Text.lowerRunes text
  if ["yes", "true", "on"].any fun w => Text.runes w == small then .ok true
  else if ["no", "false", "off"].any fun w => Text.runes w == small then .ok false
  else .error (.notTruth small)

def momentOf (text : List Rune) : Except ScalarFlaw Moment :=
  match Timestamp.ofText? (Form.withoutFinalBreak (Text.standIns text)) with
  | some t => t.toMoment
  | none => .error .notMoment

def scalarValue (tag : Tag) (text : List Rune) : Except Fault Value :=
  match tag with
  | .null => .ok .null
  | .str => .ok (.ofRunes text)
  | .bool => ((truthOf text).map .bool).mapError .scalar
  | .int => ((Number.integer text).map .int).mapError .scalar
  | .float => ((Number.float text).map .float).mapError .scalar
  | .binary =>
    match Base64.decode? (Text.standIns text) with
    | some bytes => .ok (.bytes bytes)
    | none => .error .malformed
  | .timestamp => ((momentOf text).map .moment).mapError .scalar
  | _ => .error .malformed

def Tag.isScalar : Tag → Bool
  | .null | .bool | .int | .float | .binary | .timestamp | .str => true
  | _ => false

def Tag.isCollection : Tag → Bool
  | .omap | .pairs | .set | .seq | .map => true
  | _ => false

/-- The text of a node where a scalar is wanted. In place of a mapping stands the value of
its first mark of a default value. A default that leads back to itself has no end. -/
def scalarText (g : Graph) : (bound : Nat) → NodeId → Except Fault (List Rune)
  | 0, _ => .error .nestedTooDeep
  | bound + 1, id =>
    match (g.get id).content with
    | .scalar text => .ok text
    | .mapping pairs =>
      match pairs.find? fun pair => (g.get pair.1).tag == .value with
      | some (_, default) => scalarText g bound default
      | none => .error .malformed
    | .sequence _ => .error .malformed

/-- The value of a node that is of a scalar kind. A moment is not read off a mapping. -/
def scalarOf (g : Graph) (id : NodeId) : Except Fault Value := do
  let text ← scalarText g (g.size + 1) id
  match (g.get id).tag, (g.get id).content with
  | .timestamp, .mapping _ => .error (.scalar .notText)
  | tag, _ => scalarValue tag text

namespace Making

def start (g : Graph) : Making :=
  ⟨g, Array.replicate g.size none, []⟩

def get? (m : Making) (id : NodeId) : Option Made :=
  (m.made[id]?).join

def put (m : Making) (id : NodeId) (made : Made) : Making :=
  { m with made := m.made.setIfInBounds id (some made) }

/-- Makes a scalar, or notes a collection. -/
def meet (id : NodeId) : Make Unit := do
  let m ← get
  if (m.get? id).isSome then return
  let tag := (m.graph.get id).tag
  if tag.isScalar then set (m.put id (.scalar (← scalarOf m.graph id)))
  else if tag.isCollection then
    set { m.put id (.collection (.items [])) with noted := id :: m.noted }
  else throw .malformed

def meetKey (id : NodeId) : Make Unit := do
  meet id
  match (← get).get? id with
  | some (.scalar _) => return
  | _ => throw .malformed

def meetEntry (entry : NodeId × NodeId) : Make Unit := do
  meetKey entry.1
  meet entry.2

def meetPair (id : NodeId) : Make (NodeId × NodeId) := do
  match ((← get).graph.get id).content with
  | .mapping [(key, value)] =>
    meet key
    meet value
    return (key, value)
  | _ => throw .malformed

def entriesOf (id : NodeId) : Make (List (NodeId × NodeId)) := do
  let m ← get
  match (m.graph.get id).content with
  | .mapping _ =>
    let graph ← m.graph.merge id
    set { m with graph }
    let entries := (graph.get id).pairs
    entries.forM meetEntry
    return entries
  | _ => throw .malformed

def partsOf (id : NodeId) : Make Parts := do
  let node := (← get).graph.get id
  match node.tag, node.content with
  | .seq, .sequence items =>
    items.forM meet
    return .items items
  | .omap, .sequence items | .pairs, .sequence items => return .pairs (← items.mapM meetPair)
  | .map, _ => return .entries (← entriesOf id)
  | .set, _ => return .members ((← entriesOf id).map (·.1))
  | _, _ => throw .malformed

def fill (id : NodeId) : Make Unit := do
  let parts ← partsOf id
  modify fun m => m.put id (.collection parts)

/-- Fills the noted collections, then those that were noted on the way, and so on. Every
node is noted at most once. -/
def fillAll : (bound : Nat) → Make Unit
  | 0 => return
  | bound + 1 => do
    let noted := (← get).noted.reverse
    unless noted.isEmpty do
      modify fun m => { m with noted := [] }
      noted.forM fill
      fillAll bound

/-- The value of a node inside the given ones, which it must not refer to. What a pair holds
is not followed back to them. -/
def value (m : Making) : (bound : Nat) → (around : List NodeId) → NodeId → Except Fault Value
  | 0, _, _ => .error .nestedTooDeep
  | bound + 1, around, id =>
    match m.get? id with
    | none => .error .malformed
    | some (.scalar value) => .ok value
    | some (.collection parts) =>
      if around.contains id then .error .nestedTooDeep
      else
        let inside (part : NodeId) : Except Fault Value := value m bound (id :: around) part
        let closed (part : NodeId) : Value := (inside part).toOption.getD .null
        match parts with
        | .items items => return .list (← items.mapM inside)
        | .pairs pairs =>
          return .list (pairs.map fun (key, value) => .tuple [closed key, closed value])
        | .members members => return Value.setOf (members.map closed)
        | .entries entries => do
          let written ← entries.mapM fun (key, value) => return (← inside key, value)
          let kept := Value.lastEntries written
          return .map (← kept.mapM fun (key, value) => return (key, ← inside value))

/-- The value of the root. Only a mapping has to come to an end; of anything else that does
not, no more than its kind is told. -/
def rootValue (depths : Depths) (m : Making) (root : NodeId) : Except Fault Value :=
  match m.get? root, value m depths.walked [] root with
  | some (.collection (.entries _)), result => result
  | some (.collection _), .error _ => .ok (.list [])
  | _, result => result

end Making

def Document.toValue (depths : Depths) (d : Document) : Except Fault Value := do
  let ((), m) ← (do Making.meet d.root; Making.fillAll (d.graph.size + 1) : Make Unit).run
    (Making.start d.graph)
  m.rootValue depths d.root

/-- The data of a document; an empty one is null. Data is made only once the end of the text has
been reached. -/
def parse (depths : Depths) (source : Source) : Except Fault Value := do
  let document ← Document.ofTokens depths (Token.scan source)
  if source.gap.isSome then throw .brokenOff
  match document with
  | some d => d.toValue depths
  | none => return .null

end ClaimCheck.Yaml
