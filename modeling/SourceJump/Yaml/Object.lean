import SourceJump.Value.SetOrder

/-!
# Objects

The values of nodes come into being as objects, of which collections hold the numbers: a node that
is used in several places is one object, and a collection can be its own member. A value is a tree.
An object that does not lead to itself has one value, wherever it stands. Any other collection is
spelled out until it would stand inside itself; there the value only says so.
-/

namespace SourceJump.Yaml

/-- The number of an object. -/
abbrev ObjectId := Nat

/-- An object. -/
inductive Object where
  /-- No collection. -/
  | value (v : Value)
  | list (items : List ObjectId)
  /-- A list of pairs. -/
  | pairs (items : List (ObjectId × ObjectId))
  | set (members : List ObjectId)
  | map (entries : List (ObjectId × ObjectId))

namespace Object

/-- An object can be a key when it is no collection. -/
def isKey : Object → Bool
  | .value _ => true
  | _ => false

/-- The shape of an object in a text. -/
def shape : Object → Shape
  | .map _ | .set _ => .map
  | _ => .list

/-- The value of an object when its members have values. -/
def toValue? (member : ObjectId → Option Value) : Object → Option Value
  | .value v => some v
  | .list items => .list <$> items.mapM member
  | .pairs items => .list <$> items.mapM fun (k, v) => do return .tuple [← member k, ← member v]
  | .set members => (.set <| SetOrder.arrange ·) <$> members.mapM member
  | .map entries => .map <$> entries.mapM fun (k, v) => do return (← member k, ← member v)

end Object

/-- Objects, each at the place that its number tells. -/
structure Objects where
  all : Array Object

namespace Objects

/-- The object with a number. -/
def get (objects : Objects) (id : ObjectId) : Object :=
  objects.all.getD id (.value .null)

/-- Two objects are the same key when they are one object or have values that are the same key. -/
def sameKey (objects : Objects) (a b : ObjectId) : Bool :=
  a == b ||
    match objects.get a, objects.get b with
    | .value v, .value w => v.sameKey w
    | _, _ => false

/-- The entries with the value of a key replaced, or with the key added at the end. -/
def insert (objects : Objects) (entries : List (ObjectId × ObjectId)) (key value : ObjectId) :
    List (ObjectId × ObjectId) :=
  match entries with
  | [] => [(key, value)]
  | (k, v) :: rest =>
    if objects.sameKey k key then (k, value) :: rest
    else (k, v) :: insert objects rest key value

/-- The values of the objects that do not lead to themselves, as far as they are known. -/
abbrev Settled := Array (Option Value)

/-- Gives a value to every object whose members have values, the last object first. -/
def settleOnce (objects : Objects) (settled : Settled) : Settled :=
  (List.range objects.all.size).foldr
    (fun id settled =>
      if (settled.getD id none).isSome then settled
      else settled.setIfInBounds id ((objects.get id).toValue? fun m => settled.getD m none))
    settled

/-- Gives values until no more objects get one. -/
def settle (objects : Objects) : (steps : Nat) → Settled → Settled
  | 0, settled => settled
  | steps + 1, settled =>
    let next := objects.settleOnce settled
    if next.countP Option.isSome = settled.countP Option.isSome then next
    else settle objects steps next

/-- Spells out an object on a level of the tree, inside the collections `around`. The levels above
`fresh` do not count as a place to stand inside. -/
def spell (objects : Objects) (settled : Settled) (fresh : Nat) :
    (steps level : Nat) → (around : List ObjectId) → ObjectId → Value
  | 0, _, _, _ => .null
  | steps + 1, level, around, id =>
    match settled.getD id none with
    | some v => v
    | none =>
      let object := objects.get id
      if around.contains id then .recurring object.shape
      else
        let around := if level < fresh then around else id :: around
        let member (m : ObjectId) := spell objects settled fresh steps (level + 1) around m
        (object.toValue? fun m => some (member m)).getD .null

/-- The value of an object. Each level from `fresh` on has one more object around it. -/
def toValue (objects : Objects) (fresh : Nat) (id : ObjectId) : Value :=
  let count := objects.all.size
  let settled := objects.settle count (Array.replicate count none)
  objects.spell settled fresh (fresh + count + 1) 0 [] id

end Objects

end SourceJump.Yaml
