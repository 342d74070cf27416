import SourceJump.Value.Basic

/-!
# The order of the members of a set

A set shows its members in the order of the places that they take in a table. The table has eight
places, or as many as the least power of two that is more than twice the number of members. A number
asks for the place that its hash gives; when the place is taken, it tries nine places further in a
row and then goes on elsewhere. The hash of a number is its remainder modulo a prime, so that equal
numbers of different kinds have one hash. A set with a member that has no hash of its own keeps the
order in which its members came.
-/

namespace SourceJump.SetOrder

/-- The modulus of hashes, a Mersenne prime. -/
def modulus : Nat := Nat.pow 2 61 - 1

/-- The number of different words; a negative hash is a word beyond half of them. -/
def words : Nat := Nat.pow 2 64

/-- A hash as a word. The hash minus one stands for a failure, so minus two takes its place. -/
def wordOf (hash : Int) : Nat :=
  ((if hash = -1 then -2 else hash) % words).toNat

/-- The hash of a number of the given size and sign. -/
def signed (negative : Bool) (size : Nat) : Int :=
  if negative then -(size % modulus : Nat) else (size % modulus : Nat)

/-- The hash of a floating-point number. The sixty-first power of two is one modulo the prime, so
that negative exponents have remainders too. The undefined number has no hash of its own. -/
def floatHash? (x : Float) : Option Int :=
  match FloatText.parts x with
  | .finite negative mantissa exponent _ =>
    some (signed negative (mantissa * Nat.pow 2 (exponent % 61).toNat))
  | .infinite negative => some (if negative then -314159 else 314159)
  | .undefined => none

/-- The hash of a value, where it is a number or empty. -/
def hash? : Value → Option Nat
  | .bool b => some (if b then 1 else 0)
  | .int n => some (wordOf (signed (n < 0) n.natAbs))
  | .float x => (floatHash? x).map wordOf
  | .text [] | .bytes [] => some 0
  | _ => none

/-- The number of places of the table for a number of members. -/
def tableSize (members : Nat) : Nat :=
  if members < 5 then 8 else Nat.pow 2 (Nat.log2 (2 * members) + 1)

/-- The number of further places in a row that are tried. -/
def rowLength : Nat := 9

/-- The first place that is not taken, beginning with `place`. What is left of the hash helps to
choose where to go on; `rounds` bounds how often that happens. -/
def freePlace (size : Nat) (taken : List Nat) : (rounds place left : Nat) → Nat
  | 0, place, _ => place
  | rounds + 1, place, left =>
    let row := if place + rowLength < size then List.range' place (rowLength + 1) else [place]
    match row.find? fun p => !taken.contains p with
    | some free => free
    | none =>
      let left := left / 32
      freePlace size taken rounds ((place * 5 + 1 + left) % size) left

/-- The places of members with the given hashes, entered one after the other. After the hash is used
up, in thirteen rounds, every place has its turn. -/
def placesFrom (size : Nat) (taken : List Nat) : List Nat → List Nat
  | [] => []
  | hash :: rest =>
    let place := freePlace size taken (size + 13) (hash % size) hash
    place :: placesFrom size (place :: taken) rest

/-- The members in the order in which the set shows them. -/
def arrange (members : List Value) : List Value :=
  match members.mapM hash? with
  | none => members
  | some hashes =>
    let places := placesFrom (tableSize members.length) [] hashes
    ((places.zip members).mergeSort fun a b => a.1 ≤ b.1).map (·.2)

end SourceJump.SetOrder
