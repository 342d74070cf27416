import SourceJump.Yaml.Document
import SourceJump.Yaml.Cursor

/-!
# Block scalars

A block scalar is written on the lines after its mark, indented. A literal one keeps its line ends;
in a folded one a single line end between two lines that begin with text becomes a space. The header
may give the indentation and say what becomes of the line ends at the end: all but one are dropped,
or all are, or none is.
-/

namespace SourceJump.Yaml

/-- What becomes of the line ends at the end of a block scalar. -/
inductive Chomping where
  | clip
  | strip
  | keep
  deriving DecidableEq

/-- Reads the chomping of a header. -/
def readChomping? (c : Cursor) : Option (Chomping × Cursor) :=
  if c.peek = '+' then some (.keep, c.next)
  else if c.peek = '-' then some (.strip, c.next)
  else none

/-- Reads the indentation of a header: one digit other than zero. -/
def readIncrement (c : Cursor) : Except Error (Option Nat × Cursor) :=
  if c.peek = '0' then .error .malformed
  else if c.peek.isDigit then .ok (some (c.peek.toNat - '0'.toNat), c.next)
  else .ok (none, c)

/-- Reads the header of a block scalar: chomping and indentation, in either order, each optional. -/
def readHeader (c : Cursor) : Except Error (Chomping × Option Nat × Cursor) := do
  let (chomping, increment, c) ←
    match readChomping? c with
    | some (chomping, c) => do
      let (increment, c) ← readIncrement c
      pure (chomping, increment, c)
    | none => do
      let (increment, c) ← readIncrement c
      match increment, readChomping? c with
      | some _, some (chomping, c) => pure (chomping, increment, c)
      | _, _ => pure (.clip, increment, c)
  if isSpaceOrEnd c.peek then return (chomping, increment, c) else .error .malformed

/-- Reads the rest of a line, which may hold spaces and a comment only, and its line end. -/
def skipEmptyLine (c : Cursor) : Except Error Cursor :=
  let c := c.skipSpaces.skipComment
  if isLineEnd c.peek then .ok c.skipLineBreak else .error .malformed

/-- Reads spaces and line ends: the line ends, and the greatest column that spaces reach. -/
def leadingBreaks : (steps width : Nat) → Cursor → Text × Nat × Cursor
  | 0, width, c => ([], width, c)
  | steps + 1, width, c =>
    if c.peek = ' ' then leadingBreaks steps (max width c.next.column) c.next
    else
      match c.lineBreak? with
      | none => ([], width, c)
      | some (ch, c) =>
        let (breaks, width, c) := leadingBreaks steps width c
        (ch :: breaks, width, c)

/-- The place after spaces, at most up to the column `indent`. -/
def skipIndent (indent : Nat) (c : Cursor) : Cursor :=
  c.advance (min (indent - c.column) (c.span (· == ' ')).1.length)

/-- Reads line ends, each followed by indentation. -/
def indentedBreaks (indent : Nat) : (steps : Nat) → Cursor → Text × Cursor
  | 0, c => ([], c)
  | steps + 1, c =>
    let c := skipIndent indent c
    match c.lineBreak? with
    | none => ([], c)
    | some (ch, c) =>
      let (breaks, c) := indentedBreaks indent steps c
      (ch :: breaks, c)

/-- A line stands here. -/
def atLine (indent : Nat) (c : Cursor) : Bool :=
  c.column == indent && c.peek != nul

/-- The line ends between two lines: the one that ends the first line, and the empty lines. -/
def joinLines (folded startsWithText : Bool) (lineEnd breaks : Text) (following : CodePoint) :
    Text :=
  if folded && lineEnd = Text.lit "\n" && startsWithText && following ≠ ' ' && following ≠ '\t' then
    (if breaks.isEmpty then [' '] else breaks)
  else lineEnd ++ breaks

/-- Reads the lines of a block scalar: their text, the last line end and the empty lines after. -/
def blockLines (folded : Bool) (indent : Nat) :
    (steps : Nat) → Cursor → Text × Text × Text × Cursor
  | 0, c => ([], [], [], c)
  | steps + 1, c =>
    let startsWithText := c.peek ≠ ' ' && c.peek ≠ '\t'
    let (line, c) := c.span (! isLineEnd ·)
    let (lineEnd, c) := match c.lineBreak? with
      | some (ch, c) => ([ch], c)
      | none => ([], c)
    let (breaks, c) := indentedBreaks indent c.steps c
    if atLine indent c then
      let joint := joinLines folded startsWithText lineEnd breaks c.peek
      let (others, lineEnd, breaks, c) := blockLines folded indent steps c
      (line ++ joint ++ others, lineEnd, breaks, c)
    else (line, lineEnd, breaks, c)

/-- Reads a block scalar from its mark on, in a collection of the given indentation. -/
def readBlock (folded : Bool) (outer : Int) (c : Cursor) : Except Error (Text × Cursor) := do
  let (chomping, increment, c) ← readHeader c.next
  let c ← skipEmptyLine c
  let least := max (outer + 1).toNat 1
  let (breaks, indent, c) :=
    match increment with
    | none =>
      let (breaks, width, c) := leadingBreaks c.steps 0 c
      (breaks, max least width, c)
    | some n =>
      let indent := least + n - 1
      let (breaks, c) := indentedBreaks indent c.steps c
      (breaks, indent, c)
  let (content, lineEnd, after, c) :=
    if atLine indent c then
      let (lines, lineEnd, after, c) := blockLines folded indent c.steps c
      (breaks ++ lines, lineEnd, after, c)
    else ([], [], breaks, c)
  let tail := match chomping with
    | .strip => []
    | .clip => lineEnd
    | .keep => lineEnd ++ after
  return (content ++ tail, c)

end SourceJump.Yaml
