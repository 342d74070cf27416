import SourceJump.Text.Basic
import SourceJump.Number.Integer

/-!
# Cursor positions

A position is given as an offset, or as a line and a column that both count from one, with a colon
between them. Lines are separated by line feeds; the column after the last character of a line is
a position too. Every offset of a text is one line and column and the other way round.
-/

namespace SourceJump

/-- Why a text is no position of a buffer. -/
inductive PositionError where
  /-- A number is not written as one. -/
  | notANumber (error : IntegerError)
  /-- The offset lies outside a buffer of `length` characters. -/
  | offsetOutside (offset : Int) (length : Nat)
  /-- The line lies outside a buffer of `count` lines. -/
  | lineOutside (line : Int) (count : Nat)
  /-- The column lies outside its line. -/
  | columnOutside (column line : Int)
  deriving DecidableEq

namespace Position

/-- Accepts an offset from zero to the length of the text. -/
def ofOffset (text : Text) (offset : Int) : Except PositionError Nat :=
  if 0 ≤ offset && offset ≤ text.length then .ok offset.toNat
  else .error (.offsetOutside offset text.length)

/-- The offset of a line and a column: what the earlier lines and their line feeds take, and the
characters before the column. -/
def ofLineColumn (text : Text) (line column : Int) : Except PositionError Nat :=
  let lines := text.lines
  match if line < 1 then none else lines[(line - 1).toNat]? with
  | none => .error (.lineOutside line lines.length)
  | some current =>
    if 1 ≤ column && column ≤ current.length + 1 then
      let before := (lines.take (line - 1).toNat).map (·.length + 1)
      .ok (before.foldr (· + ·) 0 + (column - 1).toNat)
    else .error (.columnOutside column line)

/-- Reads a number of a position. -/
def readNumber (t : Text) : Except PositionError Int :=
  (Integer.read 10 t).mapError .notANumber

/-- The offset that a position given as text means; both numbers are read before either is
compared with the text. -/
def parse (text position : Text) : Except PositionError Nat :=
  let position := position.strip
  match position.cut? ':' with
  | none => readNumber position >>= ofOffset text
  | some (line, column) => do
    let line ← readNumber line
    let column ← readNumber column
    ofLineColumn text line column

end Position

/-- The message for a text that is no position. -/
def PositionError.message : PositionError → String
  | .notANumber error => error.message
  | .offsetOutside offset length => s!"Offset {offset} is outside the buffer (0..{length})"
  | .lineOutside line count => s!"Line {line} is outside the buffer (1..{count})"
  | .columnOutside column line => s!"Column {column} is outside line {line}"

end SourceJump
