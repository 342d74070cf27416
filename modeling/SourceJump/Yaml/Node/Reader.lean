import SourceJump.Yaml.Node
import SourceJump.Yaml.Token.Lexer

/-!
# From tokens to nodes

Nodes are read from left to right, each token only when it is needed: of several faults in a
document the one that comes first counts, whatever its kind. The tokens of a stream form one
document at most.
-/

namespace SourceJump.Yaml

namespace Node

/-- What is known while nodes are read: the tokens ahead, the handles for tags, the nodes that
anchors name, and the nodes so far. -/
structure Reader where
  lexer : Lexer
  handles : List (Text × Text)
  anchors : List (Text × NodeId)
  graph : Graph
  /-- How many more collections may stand inside one another here. -/
  depth : Nat

/-- Reading nodes. -/
abbrev ReaderM := StateT Reader (Except Error)

/-- The token ahead. -/
def peek : ReaderM Token := do
  let r ← get
  let (token, lexer) ← r.lexer.ahead
  set { r with lexer := lexer }
  return token

/-- Passes the token ahead. -/
def skip : ReaderM Unit :=
  modify fun r => { r with lexer := r.lexer.take }

/-- Passes the token ahead if it is `token`, and tells whether it was. -/
def skipIf (token : Token) : ReaderM Bool := do
  if (← peek) = token then
    skip
    return true
  else return false

/-- Passes the token ahead, which has to be `token`. -/
def expect (token : Token) : ReaderM Unit := do
  if (← skipIf token) then return else throw .malformed

/-- Whether the token ahead is one of `tokens`. -/
def aheadIn (tokens : List Token) : ReaderM Bool := do
  return tokens.contains (← peek)

/-- The node that an alias stands for. -/
def ofAlias (name : Text) : ReaderM NodeId := do
  match (← get).anchors.find? (·.1 = name) with
  | some (_, id) => return id
  | none => throw .malformed

/-- Adds a node. -/
def add (node : Node) : ReaderM NodeId := do
  let r ← get
  let (id, graph) := r.graph.add node
  set { r with graph := graph }
  return id

/-- Adds a node that an anchor may name. -/
def addNamed (anchor : Option Text) (node : Node) : ReaderM NodeId := do
  let id ← add node
  match anchor with
  | some name => modify fun r => { r with anchors := (name, id) :: r.anchors }
  | none => pure ()
  return id

/-- Gives a node its members. -/
def complete (id : NodeId) (node : Node) : ReaderM NodeId := do
  modify fun r => { r with graph := r.graph.replace id node }
  return id

/-- No anchor is given twice. -/
def checkAnchor (anchor : Option Text) : ReaderM Unit := do
  match anchor with
  | some name => if (← get).anchors.any (·.1 = name) then throw .malformed
  | none => pure ()

/-- The full name of a tag: verbatim, or with its handle replaced. -/
def tagName (handle : Option Text) (suffix : Text) : ReaderM Text := do
  match handle with
  | none => return suffix
  | some handle =>
    match (← get).handles.find? (·.1 = handle) with
    | some (_, target) => return target ++ suffix
    | none => throw .malformed

/-- Reads an anchor, if one is ahead. -/
def readAnchor : ReaderM (Option Text) := do
  match ← peek with
  | .anchor name =>
    skip
    return some name
  | _ => return none

/-- Reads a tag, if one is ahead. -/
def readTag : ReaderM (Option (Option Text × Text)) := do
  match ← peek with
  | .tag handle suffix =>
    skip
    return some (handle, suffix)
  | _ => return none

/-- Reads the anchor and the tag of a node, in either order. -/
def readProperties : ReaderM (Option Text × Option Text) := do
  let anchor ← readAnchor
  let tag ← readTag
  let anchor ← if anchor.isNone then readAnchor else pure anchor
  let tag ← match tag with
    | some (handle, suffix) => some <$> tagName handle suffix
    | none => pure none
  return (anchor, tag)

/-- The tag of a node whose written tag says nothing is `implicit`. -/
def tagOr (tag : Option Text) (implicit : Tag) : Tag :=
  match tag with
  | none | some ['!'] => implicit
  | some name => .ofName name

/-- The tag of a scalar: a quoted one without a tag is text. -/
def scalarTag (tag : Option Text) (content : Text) (plain : Bool) : Tag :=
  tagOr tag (if plain || tag.isSome then .ofPlain content else .str)

/-- Reads inside one more collection. -/
def inside {α : Type} (content : ReaderM α) : ReaderM α := do
  let depth := (← get).depth
  if depth = 0 then throw .tooDeep
  modify fun r => { r with depth := depth - 1 }
  let result ← content
  modify fun r => { r with depth := depth }
  return result

mutual

/-- Reads a node. `block` admits block collections, `indentless` a sequence whose hyphens stand at
the column of the mapping around it. -/
def read : (steps : Nat) → (block indentless : Bool) → ReaderM NodeId
  | 0, _, _ => throw .malformed
  | steps + 1, block, indentless => do
    match ← peek with
    | .alias name =>
      skip
      ofAlias name
    | _ =>
      let (anchor, tag) ← readProperties
      readContent steps block indentless anchor tag

/-- Reads the content of a node with the given anchor and tag. The anchor of a collection can be
used inside it. -/
def readContent : (steps : Nat) → (block indentless : Bool) → (anchor tag : Option Text) →
    ReaderM NodeId
  | 0, _, _, _, _ => throw .malformed
  | steps + 1, block, indentless, anchor, tag => do
    let sequenceTag := tagOr tag .seq
    let mappingTag := tagOr tag .map
    let token ← peek
    checkAnchor anchor
    match token with
    | .scalar content plain =>
      skip
      addNamed anchor (.scalar (scalarTag tag content plain) content)
    | .flowSequenceStart =>
      let id ← addNamed anchor (.sequence sequenceTag [])
      skip
      complete id (.sequence sequenceTag (← inside (flowItems steps true)))
    | .flowMappingStart =>
      let id ← addNamed anchor (.mapping mappingTag [])
      skip
      complete id (.mapping mappingTag (← inside (flowEntries steps true)))
    | token =>
      if token = .blockEntry && indentless then
        let id ← addNamed anchor (.sequence sequenceTag [])
        complete id (.sequence sequenceTag (← inside (indentlessItems steps)))
      else if token = .blockSequenceStart && block then
        let id ← addNamed anchor (.sequence sequenceTag [])
        skip
        complete id (.sequence sequenceTag (← inside (blockItems steps)))
      else if token = .blockMappingStart && block then
        let id ← addNamed anchor (.mapping mappingTag [])
        skip
        complete id (.mapping mappingTag (← inside (blockEntries steps)))
      else if anchor.isSome || tag.isSome then
        addNamed anchor (.scalar (scalarTag tag [] true) [])
      else throw .malformed

/-- Reads a node unless one of `stops` is ahead; then nothing is written there. -/
def readUnless : (steps : Nat) → (stops : List Token) → (block indentless : Bool) → ReaderM NodeId
  | 0, _, _, _ => throw .malformed
  | steps + 1, stops, block, indentless => do
    if ← aheadIn stops then add .empty else read steps block indentless

/-- Reads the value of an entry, if a colon is ahead. -/
def readValue : (steps : Nat) → (stops : List Token) → (block indentless : Bool) → ReaderM NodeId
  | 0, _, _, _ => throw .malformed
  | steps + 1, stops, block, indentless => do
    if ← skipIf .value then readUnless steps stops block indentless else add .empty

/-- Reads the items of a block sequence up to its end. -/
def blockItems : (steps : Nat) → ReaderM (List NodeId)
  | 0 => throw .malformed
  | steps + 1 => do
    if ← skipIf .blockEntry then
      let item ← readUnless steps [.blockEntry, .blockEnd] true false
      return item :: (← blockItems steps)
    else
      expect .blockEnd
      return []

/-- Reads the items of a sequence that has no indentation of its own. -/
def indentlessItems : (steps : Nat) → ReaderM (List NodeId)
  | 0 => throw .malformed
  | steps + 1 => do
    if ← skipIf .blockEntry then
      let item ← readUnless steps [.blockEntry, .key, .value, .blockEnd] true false
      return item :: (← indentlessItems steps)
    else return []

/-- Reads the entries of a block mapping up to its end. -/
def blockEntries : (steps : Nat) → ReaderM (List (NodeId × NodeId))
  | 0 => throw .malformed
  | steps + 1 => do
    let stops := [.key, .value, .blockEnd]
    if ← skipIf .key then
      let key ← readUnless steps stops true true
      let value ← readValue steps stops true true
      return (key, value) :: (← blockEntries steps)
    else
      expect .blockEnd
      return []

/-- Reads the items of a flow sequence up to its end. A key makes an item a mapping of one entry. -/
def flowItems : (steps : Nat) → (first : Bool) → ReaderM (List NodeId)
  | 0, _ => throw .malformed
  | steps + 1, first => do
    if ← skipIf .flowSequenceEnd then return []
    if !first then expect .flowEntry
    if ← skipIf .key then
      let entry ← inside do
        let key ← readUnless steps [.value, .flowEntry, .flowSequenceEnd] false false
        return (key, ← readValue steps [.flowEntry, .flowSequenceEnd] false false)
      let item ← add (.mapping .map [entry])
      return item :: (← flowItems steps false)
    else if ← skipIf .flowSequenceEnd then return []
    else
      let item ← read steps false false
      return item :: (← flowItems steps false)

/-- Reads the entries of a flow mapping up to its end. A node without a key's mark is a key without
a value. -/
def flowEntries : (steps : Nat) → (first : Bool) → ReaderM (List (NodeId × NodeId))
  | 0, _ => throw .malformed
  | steps + 1, first => do
    if ← skipIf .flowMappingEnd then return []
    if !first then expect .flowEntry
    if ← skipIf .key then
      let key ← readUnless steps [.value, .flowEntry, .flowMappingEnd] false false
      let value ← readValue steps [.flowEntry, .flowMappingEnd] false false
      return (key, value) :: (← flowEntries steps false)
    else if ← skipIf .flowMappingEnd then return []
    else
      let key ← read steps false false
      let value ← add .empty
      return (key, value) :: (← flowEntries steps false)

end

/-- The handles that need no directive. -/
def standardHandles : List (Text × Text) :=
  [(['!'], ['!']), (['!', '!'], Tag.standardStart)]

/-- Reads directives: at most one version, which has to be a version 1, and handles, each once. -/
def readDirectives : (steps : Nat) → (versioned : Bool) → (handles : List (Text × Text)) →
    ReaderM (List (Text × Text))
  | 0, _, handles => return handles
  | steps + 1, versioned, handles => do
    match ← peek with
    | .versionDirective major _ =>
      skip
      if versioned || major ≠ 1 then throw .malformed
      readDirectives steps true handles
    | .tagDirective handle target =>
      skip
      if handles.any (·.1 = handle) then throw .malformed
      readDirectives steps versioned ((handle, target) :: handles)
    | .otherDirective =>
      skip
      readDirectives steps versioned handles
    | _ => return handles

/-- Passes marks of a document's end. -/
def skipDocumentEnds : (steps : Nat) → ReaderM Unit
  | 0 => return
  | steps + 1 => do if ← skipIf .documentEnd then skipDocumentEnds steps

/-- Whether a directive is ahead. -/
def directiveAhead : ReaderM Bool := do
  match ← peek with
  | .versionDirective .. | .tagDirective .. | .otherDirective => return true
  | _ => return false

/-- Reads the only document of a stream, which may have none. -/
def readDocument (steps : Nat) : ReaderM (Option NodeId) := do
  if (← peek) = .streamEnd then return none
  let explicit := (← directiveAhead) || (← peek) = .documentStart
  let id ←
    if explicit then do
      let handles ← readDirectives steps false []
      expect .documentStart
      modify fun r => { r with handles := handles ++ standardHandles }
      let nothing := (← directiveAhead) ||
        (← aheadIn [.documentStart, .documentEnd, .streamEnd])
      if nothing then add .empty else read steps true false
    else read steps true false
  skipDocumentEnds steps
  if (← peek) = .streamEnd then return some id
  else
    let _ ← readDirectives steps false []
    throw .malformed

/-- The nodes of a document and its root; `none` when there is no document. No more than `depth`
collections may stand inside one another. Every step of the reading passes a token or is one of the few
that lead to such a step; a character makes at most two tokens that open a block collection, two that
close one, and one of its own. -/
def ofDocument (depth : Nat) (document : Text) : Except Error (Option (Graph × NodeId)) := do
  let lexer ← Lexer.ofDocument document
  let (root, r) ← (readDocument (40 * document.length + 100)).run
    ⟨lexer, standardHandles, [], ⟨#[]⟩, depth⟩
  return root.map (r.graph, ·)

end Node

end SourceJump.Yaml
