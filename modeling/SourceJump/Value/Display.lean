import SourceJump.Text.Printable
import SourceJump.Value.Basic

/-!
# The text of a value

A value that stands where a text is expected is shown as text. Text shows as it is; inside a list or
a mapping, and everywhere for the other kinds, a value shows in a written form that tells its kind.
-/

namespace SourceJump.Value

/-- One byte between the marks of a byte text. -/
def quoteByte (mark : CodePoint) (b : UInt8) : Text :=
  let c := CodePoint.ofNat b.toNat
  if c = mark || c = '\\' then ['\\', c]
  else if c = '\n' then ['\\', 'n']
  else if c = '\r' then ['\\', 'r']
  else if c = '\t' then ['\\', 't']
  else if 0x20 ≤ b.toNat && b.toNat < 0x7f then [c]
  else '\\' :: 'x' :: Text.hexDigits 2 b.toNat

/-- Bytes in written form. -/
def writtenBytes (bytes : Bytes) : Text :=
  let mark := Text.quoteMark (bytes.map fun b => CodePoint.ofNat b.toNat)
  Text.lit "b" ++ mark :: bytes.flatMap (quoteByte mark) ++ [mark]

/-- The pieces with commas between them, and brackets around the row. -/
def enclosed (opening closing : String) (pieces : List Text) : Text :=
  Text.lit opening ++ Text.join (Text.lit ", ") pieces ++ Text.lit closing

/-- A call with its arguments. -/
def call (name : String) (arguments : List Text) : Text :=
  Text.lit name ++ enclosed "(" ")" arguments

/-- The numeral of a natural number. -/
def numeral (n : Nat) : Text :=
  Text.ofNat n

/-- A date in written form. -/
def writtenDate (d : Date) : Text :=
  call "datetime.date" [numeral d.year, numeral d.month, numeral d.day]

/-- The offset of a time in written form. -/
def writtenOffset (minutes : Int) : Text :=
  if minutes = 0 then Text.lit "datetime.timezone.utc"
  else call "datetime.timezone" [spanText minutes]

/-- A time in written form: seconds and microseconds at the end are left out when zero. -/
def writtenDateTime (t : DateTime) : Text :=
  let clock := if t.microsecond = 0 then
      if t.second = 0 then [] else [numeral t.second]
    else [numeral t.second, numeral t.microsecond]
  let zone := match t.offset with
    | some minutes => [Text.lit "tzinfo=" ++ writtenOffset minutes]
    | none => []
  call "datetime.datetime" <|
    [numeral t.date.year, numeral t.date.month, numeral t.date.day, numeral t.hour,
      numeral t.minute] ++ clock ++ zone

mutual

/-- A value in written form. -/
def written : Value → Text
  | .null => Text.lit "None"
  | .bool b => Text.lit (if b then "True" else "False")
  | .int n => Text.ofInt n
  | .float x => FloatText.write x
  | .text t => t.quote
  | .date d => writtenDate d
  | .dateTime t => writtenDateTime t
  | .bytes b => writtenBytes b
  | .list items => enclosed "[" "]" (writtenItems items)
  | .set items =>
    match writtenItems items with
    | [] => Text.lit "set()"
    | members => enclosed "\x7b" "\x7d" members
  | .tuple items =>
    match writtenItems items with
    | [item] => enclosed "(" ",)" [item]
    | items => enclosed "(" ")" items
  | .map entries => enclosed "\x7b" "\x7d" (writtenEntries entries)
  | .recurring .list => Text.lit "[...]"
  | .recurring .map => Text.lit "\x7b...\x7d"

/-- The members of a collection in written form. -/
def writtenItems : List Value → List Text
  | [] => []
  | item :: rest => written item :: writtenItems rest

/-- The entries of a mapping in written form. -/
def writtenEntries : List (Value × Value) → List Text
  | [] => []
  | (key, value) :: rest =>
    (written key ++ Text.lit ": " ++ written value) :: writtenEntries rest

end

/-- A value as text. -/
def display : Value → Text
  | .text t => t
  | .date d => d.iso
  | .dateTime t => t.iso ' '
  | v => v.written

mutual

/-- No integer in the value has more digits than are written. -/
def isWritable : Value → Bool
  | .int n => decide (n.natAbs < Nat.pow 10 Integer.maxDigits)
  | .list items | .set items | .tuple items => areWritable items
  | .map entries => areWritableEntries entries
  | _ => true

/-- No integer in the members of a collection has more digits than are written. -/
def areWritable : List Value → Bool
  | [] => true
  | item :: rest => isWritable item && areWritable rest

/-- No integer in the entries of a mapping has more digits than are written. -/
def areWritableEntries : List (Value × Value) → Bool
  | [] => true
  | (key, value) :: rest => isWritable key && isWritable value && areWritableEntries rest

end

/-- A value as text, if it can be written. -/
def display? (v : Value) : Option Text :=
  if v.isWritable then some v.display else none

end SourceJump.Value
