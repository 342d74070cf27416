import SourceJump.Text.Basic

/-!
# UTF-8

Files hold bytes; their text is what the bytes spell in UTF-8. A sequence is one start byte and the
continuation bytes that it asks for; the first continuation byte is narrowed so that no code point
has two spellings, none is a surrogate and none exceeds U+10FFFF. Decoding stops at the first byte
at fault and tells the range of bytes that belong to the fault.
-/

namespace SourceJump

/-- The content of a file. -/
abbrev Bytes := List UInt8

namespace Utf8

/-- Why a byte sequence spells no text. -/
inductive Reason where
  /-- The byte begins no sequence. -/
  | startByte
  /-- The byte after the sequence so far does not continue it. -/
  | continuationByte
  /-- The input ends inside the sequence. -/
  | unexpectedEnd
  deriving DecidableEq, Repr

/-- Where decoding stopped: `length` bytes from `position` on are at fault, `first` the first. -/
structure Fault where
  position : Nat
  length : Nat
  first : UInt8
  reason : Reason
  deriving DecidableEq, Repr

/-- The sequence that a start byte opens: its payload bits, the range of the first continuation byte
and the number of continuation bytes; `none` for a byte that opens none. -/
def opening? (b : UInt8) : Option (Nat × Nat × Nat × Nat) :=
  let n := b.toNat
  if n < 0x80 then some (n, 0, 0, 0)
  else if n < 0xc2 then none
  else if n < 0xe0 then some (n - 0xc0, 0x80, 0xbf, 1)
  else if n < 0xf0 then
    some (n - 0xe0, if n = 0xe0 then 0xa0 else 0x80, if n = 0xed then 0x9f else 0xbf, 2)
  else if n < 0xf5 then
    some (n - 0xf0, if n = 0xf0 then 0x90 else 0x80, if n = 0xf4 then 0x8f else 0xbf, 3)
  else none

/-- Reads `count` continuation bytes, the first of them between `lo` and `hi`, and adds their
payload to `value`; on failure the reason and the number of bytes that were good. -/
def continuation (value lo hi : Nat) : (count : Nat) → Bytes → Except (Reason × Nat) (Nat × Bytes)
  | 0, rest => .ok (value, rest)
  | _ + 1, [] => .error (.unexpectedEnd, 0)
  | count + 1, b :: rest =>
    if lo ≤ b.toNat && b.toNat ≤ hi then
      match continuation (value * 64 + (b.toNat - 0x80)) 0x80 0xbf count rest with
      | .ok result => .ok result
      | .error (reason, good) => .error (reason, good + 1)
    else .error (.continuationByte, 0)

/-- Decodes from byte `position` on; each step takes at least one byte, so as many steps as there
are bytes suffice. -/
def decodeFrom : (steps position : Nat) → Bytes → Except Fault Text
  | _, _, [] => .ok []
  | 0, _, _ :: _ => .ok []
  | steps + 1, position, b :: rest =>
    match opening? b with
    | none => .error ⟨position, 1, b, .startByte⟩
    | some (payload, lo, hi, count) =>
      match continuation payload lo hi count rest with
      | .error (reason, good) => .error ⟨position, good + 1, b, reason⟩
      | .ok (value, rest) =>
        match decodeFrom steps (position + count + 1) rest with
        | .ok t => .ok (CodePoint.ofNat value :: t)
        | .error fault => .error fault

/-- The text that the bytes spell, or the first fault. -/
def decode (bytes : Bytes) : Except Fault Text :=
  decodeFrom bytes.length 0 bytes

/-- The bytes that spell a text; a half in it, which UTF-8 cannot spell, is replaced. -/
def encode (t : Text) : Bytes :=
  t.toString.toUTF8.toList

/-- The words for a reason. -/
def Reason.message : Reason → String
  | .startByte => "invalid start byte"
  | .continuationByte => "invalid continuation byte"
  | .unexpectedEnd => "unexpected end of data"

/-- The message for a fault: one byte is shown by its value, several by their positions. -/
def Fault.message (f : Fault) : String :=
  let reason := f.reason.message
  let first := f.position
  if f.length = 1 then
    let high := Nat.digitChar (f.first.toNat / 16)
    let low := Nat.digitChar (f.first.toNat % 16)
    s!"'utf-8' codec can't decode byte 0x{high}{low} in position {first}: {reason}"
  else
    let last := f.position + f.length - 1
    s!"'utf-8' codec can't decode bytes in position {first}-{last}: {reason}"

end Utf8

end SourceJump
