import SourceJump.Yaml.Node.Reader
import SourceJump.Yaml.Object
import SourceJump.Yaml.Scalar

/-!
# From documents to values

The value of a node follows its tag. A collection comes into being empty and waits for its members;
collections are filled in the order in which they came into being, so that of several faults the one
nearest to the root counts, and of those on one level the first. Mappings are merged just before
they are filled: what a node holds at that moment is what counts.
-/

namespace SourceJump.Yaml

/-- What is known while the nodes of a document are given their objects. -/
structure Builder where
  graph : Graph
  /-- More than there are entries in the graph. -/
  mergeDepth : Nat
  objects : Objects
  /-- The object of each node that has one. -/
  made : Array (Option ObjectId)
  /-- The nodes of the collections that are filled next, each with its object. -/
  waiting : List (NodeId × ObjectId)
  /-- Those that came into being meanwhile and are filled after these, the last one first. -/
  later : List (NodeId × ObjectId)

/-- Building objects. -/
abbrev BuilderM := StateT Builder (Except Error)

namespace Builder

/-- The object that is the undefined number wherever it is written by its own name. Undefined
numbers that are written otherwise are no two the same key. -/
def undefinedNumber : ObjectId := 0

/-- The state before anything is built. -/
def start (graph : Graph) : Builder :=
  ⟨graph, graph.size + 1, ⟨#[.value (.float (0.0 / 0.0))]⟩,
    Array.replicate graph.nodes.size none, [], []⟩

/-- Adds an object. -/
def add (object : Object) : BuilderM ObjectId := do
  let b ← get
  set { b with objects := ⟨b.objects.all.push object⟩ }
  return b.objects.all.size

/-- The text of a scalar, or of the value that stands for a mapping; `steps` bounds the mappings
that stand for one another. -/
def scalarContent (g : Graph) : (steps : Nat) → NodeId → Except Error Text
  | 0, _ => .error .tooDeep
  | steps + 1, id =>
    match g.node id with
    | .scalar _ content => .ok content
    | .sequence _ _ => .error .malformed
    | .mapping _ entries =>
      match entries.find? fun (key, _) => (g.node key).tag = .value with
      | some (_, value) => scalarContent g steps value
      | none => .error .malformed

/-- The object of a node that is no collection. The tag is judged before the text is looked for. -/
def makeScalar (id : NodeId) : BuilderM ObjectId := do
  let b ← get
  let node := b.graph.node id
  match scalarReader? node.tag with
  | none => throw .malformed
  | some read =>
    let content ← scalarContent b.graph (b.graph.nodes.size + 1) id
    match node.tag, node with
    | .timestamp, .mapping _ _ => throw .timestampMapping
    | tag, _ =>
      let value ← read content
      if tag = .float && namesUndefined content then return undefinedNumber
      else add (.value value)

/-- The object of a node; a collection gets one that waits to be filled. -/
def make (id : NodeId) : BuilderM ObjectId := do
  let b ← get
  match b.made.getD id none with
  | some object => return object
  | none =>
    let empty? : Option Object := match (b.graph.node id).tag with
      | .seq => some (.list [])
      | .map => some (.map [])
      | .set => some (.set [])
      | .orderedMap | .pairs => some (.pairs [])
      | _ => none
    let object ← match empty? with
      | some empty => do
        let object ← add empty
        modify fun b => { b with later := (id, object) :: b.later }
        pure object
      | none => makeScalar id
    modify fun b => { b with made := b.made.setIfInBounds id (some object) }
    return object

/-- The objects of the keys and values of a list. No key is a collection. -/
def makeEntries : List (NodeId × NodeId) → (entries : List (ObjectId × ObjectId)) →
    BuilderM (List (ObjectId × ObjectId))
  | [], entries => return entries
  | (keyNode, valueNode) :: rest, entries => do
    let key ← make keyNode
    if !((← get).objects.get key).isKey then throw .malformed
    let value ← make valueNode
    makeEntries rest ((← get).objects.insert entries key value)

/-- The objects of the entries of a mapping, merged entries included. -/
def makeMapping (id : NodeId) : BuilderM (List (ObjectId × ObjectId)) := do
  let b ← get
  match b.graph.node id with
  | .mapping _ _ =>
    let ((), graph) ← (Graph.merge b.mergeDepth id).run b.graph
    set { b with graph := graph }
    makeEntries (graph.entries id) []
  | _ => throw .malformed

/-- The objects of the only entry of a mapping. -/
def makePair (id : NodeId) : BuilderM (ObjectId × ObjectId) := do
  match (← get).graph.node id with
  | .mapping _ [(keyNode, valueNode)] =>
    let key ← make keyNode
    return (key, ← make valueNode)
  | _ => throw .malformed

/-- The filled object of a collection. -/
def filled (id : NodeId) (empty : Object) : BuilderM Object := do
  match empty, (← get).graph.node id with
  | .list _, .sequence _ items => .list <$> items.mapM make
  | .pairs _, .sequence _ items => .pairs <$> items.mapM makePair
  | .map _, _ => .map <$> makeMapping id
  | .set _, _ => (fun entries => .set (entries.map (·.1))) <$> makeMapping id
  | _, _ => throw .malformed

/-- Fills the collections that wait and those that come to wait meanwhile. Every node waits once at
most, and at least one is filled between two changes of the row, which bounds the steps. -/
def fillAll : (steps : Nat) → BuilderM Unit
  | 0 => return
  | steps + 1 => do
    let b ← get
    match b.waiting, b.later with
    | [], [] => return
    | [], later => do
      set { b with waiting := later.reverse, later := [] }
      fillAll steps
    | (id, object) :: waiting, _ => do
      set { b with waiting := waiting }
      let content ← filled id (b.objects.get object)
      modify fun b => { b with objects := ⟨b.objects.all.setIfInBounds object content⟩ }
      fillAll steps

end Builder

/-- Reads documents in which no more than `depth` collections stand inside one another. An empty stream has
no document and denotes nothing. A collection that stands inside itself is spelled out afresh down to
the level `fresh`. -/
def load (depth fresh : Nat) : Loader := fun document => do
  match ← Node.ofDocument depth document with
  | none => return .null
  | some (graph, root) =>
    let build := do
      let object ← Builder.make root
      Builder.fillAll (2 * graph.nodes.size + 2)
      pure object
    let (object, b) ← build.run (Builder.start graph)
    return b.objects.toValue fresh object

end SourceJump.Yaml
