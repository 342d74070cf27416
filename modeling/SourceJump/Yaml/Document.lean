import SourceJump.Number.Integer
import SourceJump.Text.Printable
import SourceJump.Value.Basic

/-!
# YAML documents

A document has a value, or an error says why it has none. Most faults of a document are faults of its
form, and nothing more is told about them. A scalar of the right form can still denote no value: such
faults come from the number, date or character that the scalar spells.
-/

namespace SourceJump.Yaml

/-- Why a document yields no value. -/
inductive Error where
  /-- The document is not well formed, or its tags do not fit. -/
  | malformed
  | integer (error : IntegerError)
  | notFloat (text : Text)
  | calendar (error : CalendarError)
  /-- A numeric escape gives a number that is no code point. -/
  | noCodePoint (code : Nat)
  /-- A scalar that is tagged as a number is empty. -/
  | emptyNumber
  /-- A scalar that is tagged as a truth value is none. -/
  | notBool (text : Text)
  /-- A scalar that is tagged as a time is none. -/
  | notTimestamp
  /-- A mapping is tagged as a time, and a text stands for it. -/
  | timestampMapping
  /-- A number with colons has so many parts that a power of sixty is no floating-point number. -/
  | tooManyParts
  /-- Collections nest deeper than they are read, or the value that stands for a mapping is that
  mapping again. -/
  | tooDeep
  deriving DecidableEq

/-- What reads documents. -/
abbrev Loader := Text → Except Error Value

/-- What is relied on: a document that is a mapping has each of its keys once. -/
def Loader.GivesDistinctKeys (yaml : Loader) : Prop :=
  ∀ ⦃document : Text⦄ ⦃entries : Entries⦄, yaml document = .ok (.map entries) → entries.HasDistinctKeys

/-- The message for a document that has no value. The place and the cause of a fault of form are not
told. -/
def Error.message : Error → String
  | .malformed => "<YAMLError>"
  | .integer error => error.message
  | .notFloat text =>
    let shown := text.quote.toString
    s!"could not convert string to float: {shown}"
  | .calendar error => error.message
  | .noCodePoint _ => "chr() arg not in range(0x110000)"
  | .emptyNumber => "string index out of range"
  | .notBool text => text.quote.toString
  | .notTimestamp | .timestampMapping => "not a timestamp"
  | .tooManyParts => "int too large to convert to float"
  | .tooDeep => "maximum recursion depth exceeded"

end SourceJump.Yaml
