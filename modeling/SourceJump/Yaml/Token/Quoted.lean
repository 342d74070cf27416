import SourceJump.Yaml.Document
import SourceJump.Yaml.Token.Plain

/-!
# Quoted scalars

A scalar between apostrophes writes an apostrophe twice and has no other escapes. A scalar between
double quotes has escapes that begin with a backslash; a backslash at the end of a line joins the
line to the next one. Line ends fold as in plain scalars.
-/

namespace SourceJump.Yaml

/-- The character that a one-letter escape stands for. -/
def escaped? (c : CodePoint) : Option CodePoint :=
  match c with
  | '0' => some '\x00'
  | 'a' => some '\x07'
  | 'b' => some '\x08'
  | 't' | '\t' => some '\t'
  | 'n' => some '\n'
  | 'v' => some '\x0b'
  | 'f' => some '\x0c'
  | 'r' => some '\r'
  | 'e' => some '\x1b'
  | ' ' => some ' '
  | '"' => some '"'
  | '\\' => some '\\'
  | '/' => some '/'
  | 'N' => some '\u0085'
  | '_' => some '\u00a0'
  | 'L' => some '\u2028'
  | 'P' => some '\u2029'
  | _ => none

/-- The number of digits of an escape by number. -/
def escapeWidth? (c : CodePoint) : Option Nat :=
  match c with
  | 'x' => some 2
  | 'u' => some 4
  | 'U' => some 8
  | _ => none

/-- Reads line ends and the blanks after each; the mark of a document must not follow. -/
def quotedBreaks : (steps : Nat) → Cursor → Except Error (Text × Cursor)
  | 0, c => .ok ([], c)
  | steps + 1, c =>
    if c.atDocumentMark then .error .malformed
    else
      let c := c.skipWhile fun ch => ch == ' ' || ch == '\t'
      match c.lineBreak? with
      | none => .ok ([], c)
      | some (ch, c) => do
        let (breaks, c) ← quotedBreaks steps c
        return (ch :: breaks, c)

/-- Reads the gap between two stretches of a quoted scalar. -/
def quotedGap (c : Cursor) : Except Error (Text × Cursor) :=
  let (blanks, c) := c.span fun ch => ch == ' ' || ch == '\t'
  if c.peek = nul then .error .malformed
  else
    match c.lineBreak? with
    | none => .ok (blanks, c)
    | some (ch, c) => do
      let (breaks, c) ← quotedBreaks c.steps c
      return (foldBreaks ch breaks, c)

/-- Reads a number of `width` hexadecimal digits. -/
def readCode? (width : Nat) (c : Cursor) : Option (Nat × Cursor) :=
  let digits := c.rest.take width
  if digits.length = width && digits.all isHexDigit then
    some (Integer.ofDigits 16 digits, c.advance width)
  else none

/-- The character with a given number; the halves of a character have numbers, too. -/
def charOfCode (code : Nat) : Except Error CodePoint :=
  if 0x110000 ≤ code then .error (.noCodePoint code) else .ok (.ofNat code)

/-- Reads what follows a backslash. -/
def readEscape (c : Cursor) : Except Error (Text × Cursor) :=
  let ch := c.peek
  match escaped? ch, escapeWidth? ch with
  | some result, _ => .ok ([result], c.next)
  | none, some width =>
    match readCode? width c.next with
    | some (code, c) => (charOfCode code).map fun ch => ([ch], c)
    | none => .error .malformed
  | none, none =>
    match c.lineBreak? with
    | some (_, c) => quotedBreaks c.steps c
    | none => .error .malformed

/-- Reads a stretch of a quoted scalar without gaps, escapes resolved. -/
def quotedWord (mark : CodePoint) : (steps : Nat) → Cursor → Except Error (Text × Cursor)
  | 0, c => .ok ([], c)
  | steps + 1, c =>
    let ch := c.peek
    if isGap ch then .ok ([], c)
    else if ch = mark then
      if mark = '\'' && c.peekAt 1 = '\'' then do
        let (word, c) ← quotedWord mark steps (c.advance 2)
        return ('\'' :: word, c)
      else .ok ([], c)
    else if mark = '"' && ch = '\\' then do
      let (piece, c) ← readEscape c.next
      let (word, c) ← quotedWord mark steps c
      return (piece ++ word, c)
    else do
      let (word, c) ← quotedWord mark steps c.next
      return (ch :: word, c)

/-- Reads stretches and gaps up to the closing mark. -/
def quotedFrom (mark : CodePoint) : (steps : Nat) → Cursor → Except Error (Text × Cursor)
  | 0, _ => .error .malformed
  | steps + 1, c => do
    let (word, c) ← quotedWord mark c.steps c
    if c.peek = mark then return (word, c.next)
    let (gap, c) ← quotedGap c
    let (others, c) ← quotedFrom mark steps c
    return (word ++ gap ++ others, c)

/-- Reads a scalar between the marks that the character at the place begins. -/
def readQuoted (c : Cursor) : Except Error (Text × Cursor) :=
  quotedFrom c.peek c.steps c.next

end SourceJump.Yaml
