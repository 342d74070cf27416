import SourceJump.Yaml.Document
import SourceJump.Yaml.Tag

/-!
# Nodes

The nodes of a document are scalars, sequences and mappings, each with its tag. They form a graph
and not always a tree: an alias leads to the node that its anchor names, and that may be a
collection around the alias. So every node has a number, and collections hold the numbers of their
members.

An entry whose key is tagged as merging brings the entries of another mapping, or of several, into
its own. Merging replaces such entries for good: they leave the mapping, what they bring is put in
front, and a key that stands for the mapping becomes text. A mapping that is merged into itself
brings the entries that it has at that moment.
-/

namespace SourceJump.Yaml

/-- The number of a node. -/
abbrev NodeId := Nat

/-- A node of a document. -/
inductive Node where
  | scalar (tag : Tag) (content : Text)
  | sequence (tag : Tag) (items : List NodeId)
  | mapping (tag : Tag) (entries : List (NodeId × NodeId))
  deriving DecidableEq

namespace Node

/-- The scalar that stands where nothing is written. -/
def empty : Node :=
  .scalar .null []

/-- The tag of a node. -/
def tag : Node → Tag
  | .scalar tag _ | .sequence tag _ | .mapping tag _ => tag

/-- A node with another tag. -/
def withTag (tag : Tag) : Node → Node
  | .scalar _ content => .scalar tag content
  | .sequence _ items => .sequence tag items
  | .mapping _ entries => .mapping tag entries

/-- The number of members of a node, keys and values apart. -/
def width : Node → Nat
  | .scalar _ _ => 0
  | .sequence _ items => items.length
  | .mapping _ entries => 2 * entries.length

end Node

/-- The nodes of a document, each at the place that its number tells. -/
structure Graph where
  nodes : Array Node

namespace Graph

/-- The node with a number. -/
def node (g : Graph) (id : NodeId) : Node :=
  g.nodes.getD id .empty

/-- The graph with one more node, and the number of that node. -/
def add (g : Graph) (node : Node) : NodeId × Graph :=
  (g.nodes.size, ⟨g.nodes.push node⟩)

/-- The graph with another node under a number. -/
def replace (g : Graph) (id : NodeId) (node : Node) : Graph :=
  ⟨g.nodes.setIfInBounds id node⟩

/-- The entries of a mapping; other nodes have none. -/
def entries (g : Graph) (id : NodeId) : List (NodeId × NodeId) :=
  match g.node id with
  | .mapping _ entries => entries
  | _ => []

/-- The graph with other entries in a mapping. -/
def setEntries (g : Graph) (id : NodeId) (entries : List (NodeId × NodeId)) : Graph :=
  g.replace id (.mapping (g.node id).tag entries)

/-- The number of members of all nodes. -/
def size (g : Graph) : Nat :=
  (g.nodes.map Node.width).foldl (· + ·) 0

end Graph

/-! ### Merging -/

/-- Changing nodes, or finding a fault in them. -/
abbrev GraphM := StateT Graph (Except Error)

namespace Graph

/-- Gives a node another tag. -/
def retag (id : NodeId) (tag : Tag) : GraphM Unit :=
  modify fun g => g.replace id ((g.node id).withTag tag)

/-- What mappings bring, the last mapping first, once each is merged itself. -/
def broughtByAll (mergeNode : NodeId → GraphM Unit) :
    List NodeId → GraphM (List (NodeId × NodeId))
  | [] => return []
  | id :: rest => do
    match (← get).node id with
    | .mapping _ _ => do
      mergeNode id
      let own := (← get).entries id
      return (← broughtByAll mergeNode rest) ++ own
    | _ => throw .malformed

/-- What a mapping or the mappings of a sequence bring. -/
def broughtBy (mergeNode : NodeId → GraphM Unit) (id : NodeId) :
    GraphM (List (NodeId × NodeId)) := do
  match (← get).node id with
  | .sequence _ items => broughtByAll mergeNode items
  | _ => broughtByAll mergeNode [id]

/-- Passes `count` entries of a mapping from `index` on and takes out those that merge: what they
bring. Where the mapping is merged into itself that leaves nothing to do for the entries after. -/
def broughtInto (mergeNode : NodeId → GraphM Unit) (id : NodeId) :
    (count index : Nat) → GraphM (List (NodeId × NodeId))
  | 0, _ => return []
  | count + 1, index => do
    let g ← get
    match (g.entries id)[index]? with
    | none => return []
    | some (key, value) =>
      match (g.node key).tag with
      | .merge => do
        set (g.setEntries id ((g.entries id).eraseIdx index))
        let first ← broughtBy mergeNode value
        return first ++ (← broughtInto mergeNode id count index)
      | .value => do
        retag key .str
        broughtInto mergeNode id count (index + 1)
      | _ => broughtInto mergeNode id count (index + 1)

/-- Merges what the entries of a mapping bring. Every level of merging takes an entry out, so that
`depth` levels suffice when there are fewer entries. -/
def merge : (depth : Nat) → NodeId → GraphM Unit
  | 0, _ => throw .malformed
  | depth + 1, id => do
    let count := ((← get).entries id).length
    let brought ← broughtInto (merge depth) id count 0
    if !brought.isEmpty then modify fun g => g.setEntries id (brought ++ g.entries id)

end Graph

end SourceJump.Yaml
