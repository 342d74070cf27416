import SourceJump.Text.Printable
import SourceJump.Text.Utf8

/-!
# Names for the system

The names of files and users, and the words of a command, are bytes for the system. A text spells them in
UTF-8, and a half of a character from U+DC80 to U+DCFF spells a single byte that is no UTF-8. Any other
half spells nothing, and NUL would end the name early: a text with one of these cannot be passed on.
-/

namespace SourceJump

/-- The bytes of a code point in a name, if it has any. -/
def nameBytesOf? (c : CodePoint) : Option Bytes :=
  if !c.isHalf then some (Utf8.encode [c])
  else if 0xdc80 ≤ c.toNat && c.toNat < 0xdd00 then some [UInt8.ofNat (c.toNat - 0xdc00)]
  else none

/-- The bytes of a name. -/
def nameBytes? (name : Text) : Option Bytes :=
  (name.mapM nameBytesOf?).map List.flatten

/-- The name without halves of characters that has the same bytes, if there is one. -/
def plainName? (part : Text) : Option Text :=
  if part.any CodePoint.isHalf then
    (nameBytes? part).bind fun bytes => (Utf8.decode bytes).toOption
  else some part

/-- Why a text cannot be passed to the system. -/
inductive NameFault where
  /-- The halves from this one on, so many of them, have no bytes; it stands at the position. -/
  | unencodable (first : CodePoint) (position length : Nat)
  | nulByte
  deriving DecidableEq

/-- The first half without bytes, from the position on, and the halves that follow it. -/
def unencodable? (position : Nat) : Text → Option NameFault
  | [] => none
  | c :: rest =>
    if (nameBytesOf? c).isNone then
      some (.unencodable c position ((rest.takeWhile CodePoint.isHalf).length + 1))
    else unencodable? (position + 1) rest

/-- What keeps a text from being passed to the system, if anything does. -/
def nameFault? (name : Text) : Option NameFault :=
  match unencodable? 0 name with
  | some fault => some fault
  | none => if name.contains '\x00' then some .nulByte else none

/-- The message for a text that cannot be passed to the system. -/
def NameFault.message : NameFault → String
  | .unencodable first position length =>
    if length = 1 then
      let shown := (Text.quoteChar '\'' first).toString
      s!"'utf-8' codec can't encode character '{shown}' in position {position}: surrogates not allowed"
    else
      let last := position + length - 1
      s!"'utf-8' codec can't encode characters in position {position}-{last}: surrogates not allowed"
  | .nulByte => "embedded null byte"

end SourceJump
