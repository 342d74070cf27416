import SourceJump.Text.Utf8
import SourceJump.Yaml.Document
import SourceJump.Yaml.Cursor

/-!
# Directives, anchors and tags

A directive tells the version of the language or declares a handle for tags. An anchor names a node
and an alias refers to it. A tag gives the type of a node: verbatim between angle brackets, or as a
handle and a suffix; percent escapes in it spell UTF-8.
-/

namespace SourceJump.Yaml

/-- A character of a tag's suffix, other than one written by percent escape. -/
def isTagChar (c : CodePoint) : Bool :=
  c.isAlphanum || (Text.lit "-;/?:@&=+$,_.!~*'()[]%").contains c

/-- Reads the name of an anchor or an alias, which an indicator, a gap or the end must follow. -/
def readAnchorName (c : Cursor) : Except Error (Text × Cursor) :=
  let (name, c) := c.span isIdentifierChar
  if name.isEmpty then .error .malformed
  else if isGap c.peek || (Text.lit "?:,]\x7d%@\x60").contains c.peek then .ok (name, c)
  else .error .malformed

/-- Reads a handle: `!`, or a name between two of them. -/
def readTagHandle (c : Cursor) : Except Error (Text × Cursor) :=
  if c.peek ≠ '!' then .error .malformed
  else if c.peekAt 1 = ' ' then .ok (['!'], c.next)
  else
    let (name, c) := c.next.span isIdentifierChar
    if c.peek = '!' then .ok ('!' :: (name ++ Text.lit "!"), c.next) else .error .malformed

/-- Reads percent escapes: the bytes that they spell. -/
def readPercents : (steps : Nat) → Cursor → Except Error (Bytes × Cursor)
  | 0, c => .ok ([], c)
  | steps + 1, c =>
    if c.peek ≠ '%' then .ok ([], c)
    else
      let digits := c.next.rest.take 2
      if digits.length = 2 && digits.all isHexDigit then do
        let (bytes, c) ← readPercents steps (c.advance 3)
        return (UInt8.ofNat (Integer.ofDigits 16 digits) :: bytes, c)
      else .error .malformed

/-- Reads characters of a tag, escapes resolved, none of them being possible. -/
def tagCharsFrom : (steps : Nat) → Cursor → Except Error (Text × Cursor)
  | 0, c => .ok ([], c)
  | steps + 1, c =>
    if c.peek = '%' then do
      let (bytes, c) ← readPercents c.steps c
      let piece ← (Utf8.decode bytes).mapError fun _ => .malformed
      let (others, c) ← tagCharsFrom steps c
      return (piece ++ others, c)
    else if isTagChar c.peek then do
      let (others, c') ← tagCharsFrom steps c.next
      return (c.peek :: others, c')
    else .ok ([], c)

/-- Reads the characters of a tag, at least one. -/
def readTagChars (c : Cursor) : Except Error (Text × Cursor) := do
  let (content, c') ← tagCharsFrom c.steps c
  if c.index = c'.index then .error .malformed else return (content, c')

/-- Whether the tag at the place begins with a handle that has a name: a second `!` comes before the
next space. -/
def hasNamedHandle (c : Cursor) : Bool :=
  (c.next.rest.takeWhile (! isSpaceOrEnd ·)).contains '!'

/-- Reads a tag. -/
def readTag (c : Cursor) : Except Error (Token × Cursor) := do
  let (token, c) ←
    if c.peekAt 1 = '<' then do
      let (suffix, c) ← readTagChars (c.advance 2)
      if c.peek = '>' then pure (Token.tag none suffix, c.next) else .error .malformed
    else if isGap (c.peekAt 1) then pure (Token.tag none ['!'], c.next)
    else do
      let (handle, c) ← if hasNamedHandle c then readTagHandle c else pure (['!'], c.next)
      let (suffix, c) ← readTagChars c
      pure (Token.tag (some handle) suffix, c)
  if isSpaceOrEnd c.peek then return (token, c) else .error .malformed

/-- Reads a number of a version. -/
def readVersionNumber (c : Cursor) : Except Error (Nat × Cursor) :=
  let (digits, c) := c.span CodePoint.isDigit
  if digits.isEmpty then .error .malformed
  else (Integer.read 10 digits).mapError Error.integer |>.map fun n => (n.toNat, c)

/-- Reads what follows the name of a directive. -/
def readDirectiveBody (name : Text) (c : Cursor) : Except Error (Token × Cursor) := do
  if name = Text.lit "YAML" then
    let (major, c) ← readVersionNumber c.skipSpaces
    if c.peek ≠ '.' then .error .malformed
    else
      let (minor, c) ← readVersionNumber c.next
      if isSpaceOrEnd c.peek then return (.versionDirective major minor, c) else .error .malformed
  else if name = Text.lit "TAG" then
    let (handle, c) ← readTagHandle c.skipSpaces
    if c.peek ≠ ' ' then .error .malformed
    else
      let (target, c) ← readTagChars c.skipSpaces
      if isSpaceOrEnd c.peek then return (.tagDirective handle target, c) else .error .malformed
  else return (.otherDirective, c.skipWhile (! isLineEnd ·))

/-- Reads a directive and the rest of its line. -/
def readDirective (c : Cursor) : Except Error (Token × Cursor) := do
  let (name, c) := c.next.span isIdentifierChar
  if name.isEmpty || !isSpaceOrEnd c.peek then .error .malformed
  else
    let (token, c) ← readDirectiveBody name c
    let c := c.skipSpaces.skipComment
    if isLineEnd c.peek then return (token, c.skipLineBreak) else .error .malformed

end SourceJump.Yaml
