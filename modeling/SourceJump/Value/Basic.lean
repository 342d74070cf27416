import SourceJump.Number.FloatText
import SourceJump.Text.Utf8
import SourceJump.Value.Calendar

/-!
# Values

A configuration is built from values: nothing, truth values, integers, floating-point numbers, text,
dates, times, bytes, lists, sets, tuples and mappings. A value is finite: where a collection stands
inside itself, the value ends and says so. The entries of a mapping keep the order in which their
keys came first. Keys are compared by what they denote: a truth value counts as zero or one, numbers
of the two kinds are equal when they are the same number, and the undefined number equals nothing.
-/

namespace SourceJump

/-- How a collection shows in a text: between square or between curly brackets. -/
inductive Shape where
  | list
  | map
  deriving DecidableEq, Repr

/-- A value of a configuration. -/
inductive Value where
  | null
  | bool (b : Bool)
  | int (n : Int)
  | float (x : Float)
  | text (t : Text)
  | date (d : Date)
  | dateTime (t : DateTime)
  | bytes (b : Bytes)
  | list (items : List Value)
  | set (items : List Value)
  | tuple (items : List Value)
  | map (entries : List (Value × Value))
  /-- The place in a collection at which the collection itself stands again. -/
  | recurring (shape : Shape)
  deriving Inhabited

/-- The entries of a mapping, in order. -/
abbrev Entries := List (Value × Value)

namespace Value

/-- The text of the literal `s` as a value. -/
def lit (s : String) : Value :=
  .text (Text.lit s)

/-- A value that counts as true: neither nothing, false, zero nor empty. -/
def truthy : Value → Bool
  | .null => false
  | .bool b => b
  | .int n => n != 0
  | .float x => !(x == 0)
  | .text t => !t.isEmpty
  | .bytes b => !b.isEmpty
  | .list items | .set items | .tuple items => !items.isEmpty
  | .map entries => !entries.isEmpty
  | .date _ | .dateTime _ | .recurring _ => true

/-- The number that a value is, where it is an integral number. -/
def integer? : Value → Option Int
  | .bool b => some (if b then 1 else 0)
  | .int n => some n
  | .float x =>
    match FloatText.parts x with
    | .finite negative m (.ofNat q) _ =>
      some ((if negative then -1 else 1) * (m * Nat.pow 2 q : Nat))
    | .finite negative m (.negSucc q) _ =>
      if m % Nat.pow 2 (q + 1) = 0 then
        some ((if negative then -1 else 1) * (m / Nat.pow 2 (q + 1) : Nat))
      else none
    | _ => none
  | _ => none

/-- Two values that are the same key. -/
def sameKey (a b : Value) : Bool :=
  match a.integer?, b.integer? with
  | some m, some n => m == n
  | none, none =>
    match a, b with
    | .null, .null => true
    | .float x, .float y => x == y
    | .text s, .text t => s == t
    | .date d, .date e => d == e
    | .dateTime s, .dateTime t => s.sameMoment t
    | .bytes s, .bytes t => s == t
    | _, _ => false
  | _, _ => false

end Value

namespace Entries

/-- The value of the first entry with this key. -/
def find? (entries : Entries) (key : Value) : Option Value :=
  (List.find? (fun entry => entry.1.sameKey key) entries).map (·.2)

/-- The entries with the value of `key` replaced, or with the key added at the end. -/
def insert (entries : Entries) (key value : Value) : Entries :=
  match entries with
  | [] => [(key, value)]
  | (k, v) :: rest =>
    if k.sameKey key then (k, value) :: rest else (k, v) :: insert rest key value

/-- The value of a key given as text. -/
def get? (entries : Entries) (key : String) : Option Value :=
  find? entries (.lit key)

/-- Entries of which no two have the same key. -/
def HasDistinctKeys (entries : Entries) : Prop :=
  entries.Pairwise fun e f => e.1.sameKey f.1 = false

end Entries

end SourceJump
