import SourceJump.Text.Basic

/-!
# Cursors and tokens

A cursor is a place in a document: the text from there on, and the line, column and index of the
place. The end of the document reads as NUL, a character that no document holds. Five characters end
a line; a carriage return before a line feed belongs to the line end that follows it.

From a document its tokens are read. Indentation shows as tokens of its own: a block collection opens
with the token of its kind and closes with the end of its indentation.
-/

namespace SourceJump.Yaml

/-- The character that stands for the end of the document. -/
def nul : CodePoint := '\x00'

/-- A character that ends a line. -/
def isBreak (c : CodePoint) : Bool :=
  c == '\n' || c == '\r' || c == '\u0085' || c == '\u2028' || c == '\u2029'

/-- The end of a line or of the document. -/
def isLineEnd (c : CodePoint) : Bool :=
  c == nul || isBreak c

/-- A space, or the end of a line or of the document. -/
def isSpaceOrEnd (c : CodePoint) : Bool :=
  c == ' ' || isLineEnd c

/-- A space or tabulator, or the end of a line or of the document. -/
def isGap (c : CodePoint) : Bool :=
  c == '\t' || isSpaceOrEnd c

/-- A digit, a letter of the basic Latin alphabet, a hyphen or an underscore. -/
def isIdentifierChar (c : CodePoint) : Bool :=
  c.isAlphanum || c == '-' || c == '_'

/-- A digit of a hexadecimal number. -/
def isHexDigit (c : CodePoint) : Bool :=
  c.isDigit || ('a' ≤ c && c ≤ 'f') || ('A' ≤ c && c ≤ 'F')

/-- A place in a document. -/
structure Cursor where
  rest : Text
  /-- The number of characters of the document. -/
  size : Nat
  index : Nat
  line : Nat
  column : Nat

namespace Cursor

/-- The start of a document. -/
def start (t : Text) : Cursor :=
  ⟨t, t.length, 0, 0, 0⟩

/-- The character at the place. -/
def peek (c : Cursor) : CodePoint :=
  c.rest.headD nul

/-- The character `n` places further. -/
def peekAt (c : Cursor) (n : Nat) : CodePoint :=
  c.rest.getD n nul

/-- The place after the next character. A byte order mark takes no column. -/
def next (c : Cursor) : Cursor :=
  match c.rest with
  | [] => c
  | ch :: rest =>
    if isBreak ch && !(ch == '\r' && rest.head? == some '\n') then
      ⟨rest, c.size, c.index + 1, c.line + 1, 0⟩
    else if ch = '\ufeff' then ⟨rest, c.size, c.index + 1, c.line, c.column⟩
    else ⟨rest, c.size, c.index + 1, c.line, c.column + 1⟩

/-- The place `n` characters further. -/
def advance (c : Cursor) : Nat → Cursor
  | 0 => c
  | n + 1 => c.next.advance n

/-- The longest run of characters that satisfy `p`, and the place after it. -/
def span (c : Cursor) (p : CodePoint → Bool) : Text × Cursor :=
  let run := c.rest.takeWhile p
  (run, c.advance run.length)

/-- The place after the longest run of characters that satisfy `p`. -/
def skipWhile (c : Cursor) (p : CodePoint → Bool) : Cursor :=
  (c.span p).2

/-- The place after spaces. -/
def skipSpaces (c : Cursor) : Cursor :=
  c.skipWhile (· == ' ')

/-- The place after a comment, if one begins here. -/
def skipComment (c : Cursor) : Cursor :=
  if c.peek = '#' then c.skipWhile (! isLineEnd ·) else c

/-- The line end at the place, as one character, and the place after it: the two separators of
lines and paragraphs stand for themselves, the others for a line feed. -/
def lineBreak? (c : Cursor) : Option (CodePoint × Cursor) :=
  let ch := c.peek
  if ch = '\r' && c.peekAt 1 = '\n' then some ('\n', c.advance 2)
  else if ch = '\u2028' || ch = '\u2029' then some (ch, c.next)
  else if isBreak ch then some ('\n', c.next)
  else none

/-- The place after the line end, if one is here. -/
def skipLineBreak (c : Cursor) : Cursor :=
  match c.lineBreak? with
  | some (_, c') => c'
  | none => c

/-- Three times the character `mark` and then a gap. -/
def atMark (c : Cursor) (mark : CodePoint) : Bool :=
  c.rest.take 3 = [mark, mark, mark] && isGap (c.peekAt 3)

/-- The mark of a document's start or end. -/
def atDocumentMark (c : Cursor) : Bool :=
  c.atMark '-' || c.atMark '.'

/-- A bound for the steps of any reading from the place on. -/
def steps (c : Cursor) : Nat :=
  c.size - c.index + 1

end Cursor

/-- One token of a document. -/
inductive Token where
  /-- The version of the language that the document follows. -/
  | versionDirective (major minor : Nat)
  /-- A handle for tags and what it stands for. -/
  | tagDirective (handle target : Text)
  | otherDirective
  | documentStart
  | documentEnd
  | blockSequenceStart
  | blockMappingStart
  | blockEnd
  | flowSequenceStart
  | flowSequenceEnd
  | flowMappingStart
  | flowMappingEnd
  | blockEntry
  | flowEntry
  | key
  | value
  | alias (name : Text)
  | anchor (name : Text)
  | tag (handle : Option Text) (suffix : Text)
  | scalar (content : Text) (plain : Bool)
  | streamEnd
  deriving DecidableEq

end SourceJump.Yaml
