import ClaimCheck.Text.Rune
import ClaimCheck.Yaml.Tag
import ClaimCheck.Yaml.Token
/-!
The nodes of a document: scalars, sequences and mappings, each with its tag. They form a
graph, in which a collection refers to its parts by their places. An alias is one more
reference to the node that it names, which may be one around it.

The pairs of the mapping that a merge key names are put before the own pairs of its mapping,
which count more because they are later. Each merge key is taken out of its mapping before what
it names is looked at, so that mappings which merge each other, or themselves, come to an end.
-/
namespace ClaimCheck.Yaml

abbrev NodeId := Nat

inductive Content where
  | scalar (text : List Text.Rune)
  | sequence (items : List NodeId)
  | mapping (pairs : List (NodeId × NodeId))
  deriving Repr

structure Node where
  tag : Tag
  content : Content
  deriving Repr

def Node.blank : Node := ⟨.null, .scalar []⟩

def Node.pairs (node : Node) : List (NodeId × NodeId) :=
  match node.content with
  | .mapping pairs => pairs
  | _ => []

structure Graph where
  nodes : Array Node
  deriving Repr

namespace Graph

def empty : Graph := ⟨#[]⟩

def size (g : Graph) : Nat := g.nodes.size

def get (g : Graph) (id : NodeId) : Node :=
  g.nodes.getD id Node.blank

def add (g : Graph) (node : Node) : Graph × NodeId :=
  (⟨g.nodes.push node⟩, g.nodes.size)

def set (g : Graph) (id : NodeId) (node : Node) : Graph :=
  ⟨g.nodes.setIfInBounds id node⟩

def setPairs (g : Graph) (id : NodeId) (pairs : List (NodeId × NodeId)) : Graph :=
  g.set id { g.get id with content := .mapping pairs }

def pairCount (g : Graph) : Nat :=
  g.nodes.foldl (fun n node => n + node.pairs.length) 0

def isMerge (g : Graph) (pair : NodeId × NodeId) : Bool :=
  (g.get pair.1).tag == .merge

def takeMerge? (g : Graph) (id : NodeId) : Option (NodeId × Graph) :=
  let pairs := (g.get id).pairs
  let before := pairs.takeWhile fun pair => !g.isMerge pair
  match pairs.drop before.length with
  | pair :: after => some (pair.2, g.setPairs id (before ++ after))
  | [] => none

/-- A mark of a default value that stands as a key is a text there. -/
def settleKey (g : Graph) (pair : NodeId × NodeId) : Graph :=
  let key := g.get pair.1
  if key.tag = .value then g.set pair.1 { key with tag := .str } else g

def settleKeys (g : Graph) (id : NodeId) : Graph :=
  (g.get id).pairs.foldl settleKey g

/-- The graph with the merge keys of a mapping carried out. A merge key names a mapping or a
sequence of mappings, of which later ones are put first. There are at most as many merge
keys as the bound less one. -/
def mergeWithin : (bound : Nat) → NodeId → Graph → Except Fault Graph
  | 0, _, _ => .error .malformed
  | bound + 1, id, g =>
    match g.takeMerge? id with
    | none => .ok (g.settleKeys id)
    | some (source, g) => do
      let mergeOne (g : Graph) (source : NodeId) :
          Except Fault (Graph × List (NodeId × NodeId)) :=
        match (g.get source).content with
        | .mapping _ => do
          let g ← mergeWithin bound source g
          return (g, (g.get source).pairs)
        | _ => .error .malformed
      let (g, merged) ← match (g.get source).content with
        | .sequence items =>
          items.foldlM (fun (g, merged) item => do
            let (g, pairs) ← mergeOne g item
            return (g, pairs ++ merged)) (g, [])
        | _ => mergeOne g source
      let g ← mergeWithin bound id g
      return g.setPairs id (merged ++ (g.get id).pairs)

def merge (g : Graph) (id : NodeId) : Except Fault Graph :=
  mergeWithin (g.pairCount + 1) id g

end Graph

structure Document where
  graph : Graph
  root : NodeId
  deriving Repr

/-- How many levels of collections the stack bears: while the nodes of a document are read, and
while its data is walked. -/
structure Depths where
  read : Nat
  walked : Nat
  deriving DecidableEq, Repr

end ClaimCheck.Yaml
