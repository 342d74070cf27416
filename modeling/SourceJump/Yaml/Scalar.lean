import SourceJump.Text.LowerCase
import SourceJump.Text.Utf8
import SourceJump.Value.Basic
import SourceJump.Yaml.Document
import SourceJump.Yaml.Tag

/-!
# The values of scalars

What a scalar denotes is a matter of its tag and its text. A scalar that is tagged explicitly need
not have the form that an untagged one of the type has, so every reading can fail.

Bytes are written in base 64. Four characters spell three bytes. Characters outside the alphabet are
passed over. Padding ends the text once it completes a group of four; a text that ends inside a group
without padding spells nothing.
-/

namespace SourceJump.Yaml

namespace Base64

/-- The six bits of a character of the alphabet. -/
def sextet? (c : CodePoint) : Option Nat :=
  if c.isUpper then some (c.toNat - 'A'.toNat)
  else if c.isLower then some (c.toNat - 'a'.toNat + 26)
  else if c.isDigit then some (c.toNat - '0'.toNat + 52)
  else if c = '+' then some 62
  else if c = '/' then some 63
  else none

/-- Reads on with `filled` characters of the current group read, `carry` the bits of the last one
that are not written yet, and `padding` marks of padding since. -/
def decodeFrom : (filled carry padding : Nat) → Text → Option Bytes
  | filled, _, _, [] => if filled = 0 then some [] else none
  | filled, carry, padding, c :: rest =>
    if c = '=' then
      if 2 ≤ filled then
        if 4 ≤ filled + padding + 1 then some [] else decodeFrom filled carry (padding + 1) rest
      else decodeFrom filled carry padding rest
    else
      match sextet? c with
      | none => decodeFrom filled carry padding rest
      | some bits =>
        let byte (high low : Nat) : UInt8 := UInt8.ofNat (high + low)
        match filled with
        | 0 => decodeFrom 1 bits 0 rest
        | 1 => (decodeFrom 2 (bits % 16) 0 rest).map (byte (carry * 4) (bits / 16) :: ·)
        | 2 => (decodeFrom 3 (bits % 4) 0 rest).map (byte (carry * 16) (bits / 4) :: ·)
        | _ => (decodeFrom 0 0 0 rest).map (byte (carry * 64) bits :: ·)

/-- The bytes that a text spells. -/
def decode? (t : Text) : Option Bytes :=
  decodeFrom 0 0 0 t

end Base64

/-- A number written with colons: every part counts sixty of the part after it. -/
def ofSixtieths (parts : List Int) : Int :=
  parts.foldl (fun n part => n * 60 + part) 0

/-- The integer without sign that a text writes. -/
def readUnsignedInt (t : Text) : Except Error Int :=
  let read (base : Nat) (t : Text) := (Integer.read base t).mapError Error.integer
  match t with
  | [] => .error .emptyNumber
  | ['0'] => .ok 0
  | '0' :: 'b' :: rest => read 2 rest
  | '0' :: 'x' :: rest => read 16 rest
  | '0' :: _ => read 8 t
  | _ => if t.contains ':' then ofSixtieths <$> (t.split ':').mapM (read 10) else read 10 t

/-- The integer that a text writes, underscores left out. -/
def readInt (t : Text) : Except Error Int :=
  let (negative, t) := Integer.takeSign (t.filter (· ≠ '_'))
  (fun n => if negative then -n else n) <$> readUnsignedInt t

/-- Reads a part of a floating-point number. -/
def readFloatPart (t : Text) : Except Error Float :=
  match FloatText.read? t with
  | some x => .ok x
  | none => .error (.notFloat t)

/-- The greatest number of parts of a floating-point number with colons. -/
def maxFloatParts : Nat := 174

/-- The sum of the parts, each multiplied by its power of sixty, the last part first. -/
def sumSixtieths (parts : List Float) : Except Error Float :=
  if maxFloatParts < parts.length then .error .tooManyParts
  else
    let add := fun (sum, base) x => (sum + x * Float.ofNat base, base * 60)
    .ok (parts.reverse.foldl add (0.0, 1)).1

/-- The name of the undefined number. -/
def undefinedName : Text :=
  Text.lit ".nan"

/-- The floating-point number without sign that a text in lower case writes. -/
def readUnsignedFloat (t : Text) : Except Error Float := do
  if t = Text.lit ".inf" then return 1.0 / 0.0
  else if t = undefinedName then return 0.0 / 0.0
  else if t.contains ':' then sumSixtieths (← (t.split ':').mapM readFloatPart)
  else readFloatPart t

/-- The sign of a floating-point number and the text after it, in lower case and with underscores
left out. -/
def takeFloatSign (t : Text) : Bool × Text :=
  Integer.takeSign (Text.lower (t.filter (· ≠ '_')))

/-- The floating-point number that a text writes, underscores left out. -/
def readFloat (t : Text) : Except Error Float :=
  if t.all (· = '_') then .error .emptyNumber
  else
    let (negative, t) := takeFloatSign t
    (fun x => if negative then -x else x) <$> readUnsignedFloat t

/-- The text calls the undefined number by its name. -/
def namesUndefined (t : Text) : Bool :=
  (takeFloatSign t).2 = undefinedName

/-- The truth value that a text names. -/
def readBool (t : Text) : Except Error Bool :=
  let word := t.lower
  if ["yes", "true", "on"].any (Text.lit · = word) then .ok true
  else if ["no", "false", "off"].any (Text.lit · = word) then .ok false
  else .error (.notBool word)

/-- The microseconds that the digits of a fraction write; digits beyond the sixth are dropped. -/
def microseconds (digits : Text) : Nat :=
  let six := digits.take 6
  Integer.ofDigits 10 (six ++ List.replicate (6 - six.length) (.char '0'))

/-- The date or time that a text writes, one line feed at its end aside. -/
def readTimestamp (t : Text) : Except Error Value := do
  match TimestampParts.read? (Tag.withoutFinalNewline t) with
  | none => throw .notTimestamp
  | some parts =>
    match parts.clock with
    | none => .date <$> (Date.make parts.year parts.month parts.day).mapError Error.calendar
    | some (hour, minute, second, fraction) =>
      let offset ← (parts.offset.mapM DateTime.checkOffset).mapError Error.calendar
      let time := DateTime.make parts.year parts.month parts.day hour minute second
        (microseconds fraction) offset
      .dateTime <$> time.mapError Error.calendar

/-- The bytes that a text writes. -/
def readBinary (t : Text) : Except Error Bytes :=
  if t.all (·.toNat < 0x80) then
    match Base64.decode? t with
    | some bytes => .ok bytes
    | none => .error .malformed
  else .error .malformed

/-- How a tag reads the text of a scalar, if it is a tag of scalars. -/
def scalarReader? : Tag → Option (Text → Except Error Value)
  | .null => some fun _ => .ok .null
  | .bool => some fun t => .bool <$> readBool t
  | .int => some fun t => .int <$> readInt t
  | .float => some fun t => .float <$> readFloat t
  | .binary => some fun t => .bytes <$> readBinary t
  | .timestamp => some readTimestamp
  | .str => some fun t => .ok (.text t)
  | _ => none

end SourceJump.Yaml
