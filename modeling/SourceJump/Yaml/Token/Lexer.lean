import SourceJump.Yaml.Token.Block
import SourceJump.Yaml.Token.Property
import SourceJump.Yaml.Token.Quoted

/-!
# From text to tokens

A document is cut into tokens from left to right, no further than the token that is asked for needs.
Two things need memory. Indentation outside flow collections opens and closes block collections. And
a scalar or a flow collection can turn out to be a key only when a colon follows it: until then its
place in the row of tokens is kept as a possible key, one at most for each depth of nesting, and it
lapses after the line or after 1024 characters.
-/

namespace SourceJump.Yaml

/-- A place where a key may begin. -/
structure PossibleKey where
  /-- The nesting of flow collections at the place. -/
  depth : Nat
  /-- The number of tokens before the place. -/
  position : Nat
  /-- A colon has to follow, because nothing but a key can begin here. -/
  required : Bool
  index : Nat
  line : Nat
  column : Nat

/-- The state of the reading. -/
structure Lexer where
  cursor : Cursor
  /-- The nesting of flow collections. -/
  depth : Nat
  /-- The column of the innermost block collection, minus one outside all of them. -/
  indent : Int
  /-- The columns of the collections around it, the nearest first. -/
  outer : List Int
  /-- A key may begin at the next token. -/
  keyAllowed : Bool
  possibleKeys : List PossibleKey
  /-- The tokens that were read and not taken. -/
  tokens : List Token
  /-- The number of tokens that were taken. -/
  taken : Nat
  /-- The end of the document was read. -/
  finished : Bool

namespace Lexer

/-- The state before the document. -/
def start (t : Text) : Lexer :=
  let c := Cursor.start t
  let c := if c.peek = '\ufeff' then c.next else c
  ⟨c, 0, -1, [], true, [], [], 0, false⟩

/-- Adds a token at the end. -/
def push (l : Lexer) (token : Token) : Lexer :=
  { l with tokens := l.tokens ++ [token] }

/-- Adds tokens before the token at `position`, which was not taken yet. -/
def pushAt (l : Lexer) (position : Nat) (tokens : List Token) : Lexer :=
  let (before, after) := l.tokens.splitAt (position - l.taken)
  { l with tokens := before ++ tokens ++ after }

/-- Moves past spaces, comments and line ends to the next token; outside flow collections a key may
begin after a line end. -/
def skipBetween : (steps : Nat) → Lexer → Lexer
  | 0, l => l
  | steps + 1, l =>
    let c := l.cursor.skipSpaces.skipComment
    match c.lineBreak? with
    | some (_, c) =>
      skipBetween steps { l with cursor := c, keyAllowed := l.depth == 0 || l.keyAllowed }
    | none => { l with cursor := c }

/-- A possible key has lapsed. -/
def lapsed (l : Lexer) (key : PossibleKey) : Bool :=
  key.line != l.cursor.line || 1024 < l.cursor.index - key.index

/-- Drops the possible keys that have lapsed; none of them may be required. -/
def dropLapsed (l : Lexer) : Except Error Lexer :=
  if l.possibleKeys.any fun key => key.required && l.lapsed key then .error .malformed
  else .ok { l with possibleKeys := l.possibleKeys.filter (! l.lapsed ·) }

/-- Drops the possible key of the current depth, which may not be required. -/
def dropKey (l : Lexer) : Except Error Lexer :=
  if l.possibleKeys.any fun key => key.depth == l.depth && key.required then .error .malformed
  else .ok { l with possibleKeys := l.possibleKeys.filter (·.depth != l.depth) }

/-- Keeps the place as a possible key, if a key may begin here. -/
def keepKey (l : Lexer) : Except Error Lexer :=
  if !l.keyAllowed then .ok l
  else do
    let c := l.cursor
    let required := l.depth == 0 && l.indent == (c.column : Int)
    let l ← l.dropKey
    let position := l.taken + l.tokens.length
    let key : PossibleKey := ⟨l.depth, position, required, c.index, c.line, c.column⟩
    return { l with possibleKeys := key :: l.possibleKeys }

/-- Closes the block collections that are indented further than `column`. -/
def unwind (l : Lexer) (column : Int) : Lexer :=
  if l.depth != 0 then l
  else
    let closed := (l.indent :: l.outer).takeWhile (column < ·)
    match (l.indent :: l.outer).dropWhile (column < ·) with
    | indent :: outer =>
      { l with
        indent := indent
        outer := outer
        tokens := l.tokens ++ List.replicate closed.length Token.blockEnd }
    | [] => l

/-- Opens a block collection at `column` if it is indented further than the current one; tells
whether it did. -/
def indentTo (l : Lexer) (column : Nat) : Bool × Lexer :=
  if l.indent < (column : Int) then
    (true, { l with indent := column, outer := l.indent :: l.outer })
  else (false, l)

/-- Opens a block collection at the cursor with the token of its kind, if it is indented further
than the current one. -/
def openBlock (l : Lexer) (token : Token) : Lexer :=
  match l.indentTo l.cursor.column with
  | (true, l) => l.push token
  | (false, l) => l

/-- Adds the token for an indicator of `width` characters and moves past it. -/
def indicator (l : Lexer) (token : Token) (width : Nat) : Lexer :=
  { l.push token with cursor := l.cursor.advance width }

/-- The end of the document. -/
def atEnd (l : Lexer) : Except Error Lexer := do
  let l ← (l.unwind (-1)).dropKey
  return { l.push .streamEnd with keyAllowed := false, possibleKeys := [], finished := true }

/-- A directive. -/
def directive (l : Lexer) : Except Error Lexer := do
  let l ← (l.unwind (-1)).dropKey
  let (token, c) ← readDirective l.cursor
  return { l.push token with cursor := c, keyAllowed := false }

/-- The mark of a document's start or end. -/
def documentMark (l : Lexer) (token : Token) : Except Error Lexer := do
  let l ← (l.unwind (-1)).dropKey
  return { l.indicator token 3 with keyAllowed := false }

/-- The start of a flow collection. -/
def flowStart (l : Lexer) (token : Token) : Except Error Lexer := do
  let l ← l.keepKey
  return { l.indicator token 1 with depth := l.depth + 1, keyAllowed := true }

/-- The end of a flow collection; there has to be one to end. -/
def flowEnd (l : Lexer) (token : Token) : Except Error Lexer := do
  let l ← l.dropKey
  if l.depth = 0 then .error .malformed
  else return { l.indicator token 1 with depth := l.depth - 1, keyAllowed := false }

/-- A comma in a flow collection. -/
def flowEntry (l : Lexer) : Except Error Lexer := do
  let l ← l.dropKey
  return { l.indicator .flowEntry 1 with keyAllowed := true }

/-- The hyphen of an entry of a block sequence. -/
def blockEntry (l : Lexer) : Except Error Lexer := do
  if l.depth = 0 && !l.keyAllowed then .error .malformed
  else
    let l := if l.depth = 0 then l.openBlock .blockSequenceStart else l
    let l ← l.dropKey
    return { l.indicator .blockEntry 1 with keyAllowed := true }

/-- The question mark of a key. -/
def explicitKey (l : Lexer) : Except Error Lexer := do
  if l.depth = 0 && !l.keyAllowed then .error .malformed
  else
    let l := if l.depth = 0 then l.openBlock .blockMappingStart else l
    let l ← l.dropKey
    return { l.indicator .key 1 with keyAllowed := l.depth == 0 }

/-- The colon before a value: the possible key of this depth becomes a key, and outside flow
collections it may begin a mapping. -/
def valueMark (l : Lexer) : Except Error Lexer := do
  match l.possibleKeys.find? (·.depth == l.depth) with
  | some key =>
    let l := { l with possibleKeys := l.possibleKeys.filter (·.depth != l.depth) }
    let (opens, l) := if l.depth = 0 then l.indentTo key.column else (false, l)
    let l := l.pushAt key.position (if opens then [.blockMappingStart, .key] else [.key])
    return { l.indicator .value 1 with keyAllowed := false }
  | none =>
    if l.depth = 0 && !l.keyAllowed then .error .malformed
    else
      let l := if l.depth = 0 then l.openBlock .blockMappingStart else l
      let l ← { l with keyAllowed := l.depth == 0 }.dropKey
      return l.indicator .value 1

/-- An anchor, an alias, a tag or a quoted scalar: something that a key may begin with. -/
def inlineToken (l : Lexer) (read : Cursor → Except Error (Token × Cursor)) :
    Except Error Lexer := do
  let l ← l.keepKey
  let (token, c) ← read l.cursor
  return { l.push token with cursor := c, keyAllowed := false }

/-- A block scalar. -/
def blockScalar (l : Lexer) (folded : Bool) : Except Error Lexer := do
  let l ← l.dropKey
  let (content, c) ← readBlock folded l.indent l.cursor
  return { l.push (.scalar content false) with cursor := c, keyAllowed := true }

/-- A plain scalar; if it ends at a line end, a key may begin after it. -/
def plainScalar (l : Lexer) : Except Error Lexer := do
  let l ← l.keepKey
  let s := readPlain (l.depth != 0) l.indent l.cursor
  return { l.push (.scalar s.content true) with cursor := s.cursor, keyAllowed := s.newLine }

/-- A plain scalar may begin here: with a character that is no indicator, or with one of three
indicators that no gap follows. -/
def startsPlain (l : Lexer) : Bool :=
  let ch := l.cursor.peek
  !(isGap ch || (Text.lit "-?:,[]\x7b\x7d#&*!|>'\"%@\x60").contains ch) ||
    (!isGap (l.cursor.peekAt 1) && (ch == '-' || (l.depth == 0 && (ch == '?' || ch == ':'))))

/-- The tokens that begin with a scalar's or a node's indicator. -/
def nodeToken (l : Lexer) : Except Error Lexer :=
  match l.cursor.peek with
  | '*' => l.inlineToken fun c => (readAnchorName c.next).map fun (name, c) => (.alias name, c)
  | '&' => l.inlineToken fun c => (readAnchorName c.next).map fun (name, c) => (.anchor name, c)
  | '!' => l.inlineToken readTag
  | '\'' | '"' => l.inlineToken fun c => (readQuoted c).map fun (t, c) => (.scalar t false, c)
  | ch =>
    if ch = '|' && l.depth = 0 then l.blockScalar false
    else if ch = '>' && l.depth = 0 then l.blockScalar true
    else if l.startsPlain then l.plainScalar
    else .error .malformed

/-- Reads the next token, the cursor being at its first character. -/
def nextToken (l : Lexer) : Except Error Lexer :=
  let c := l.cursor
  let gapFollows := isGap (c.peekAt 1)
  if c.column = 0 && c.peek = '%' then l.directive
  else if c.column = 0 && c.atMark '-' then l.documentMark .documentStart
  else if c.column = 0 && c.atMark '.' then l.documentMark .documentEnd
  else
    match c.peek with
    | '[' => l.flowStart .flowSequenceStart
    | '\x7b' => l.flowStart .flowMappingStart
    | ']' => l.flowEnd .flowSequenceEnd
    | '\x7d' => l.flowEnd .flowMappingEnd
    | ',' => l.flowEntry
    | ch =>
      if ch = '-' && gapFollows then l.blockEntry
      else if ch = '?' && (l.depth != 0 || gapFollows) then l.explicitKey
      else if ch = ':' && (l.depth != 0 || gapFollows) then l.valueMark
      else l.nodeToken

/-- Reads on up to and with the next token. -/
def readOn (l : Lexer) : Except Error Lexer := do
  let l ← (l.skipBetween l.cursor.steps).dropLapsed
  let l := l.unwind l.cursor.column
  if l.cursor.rest.isEmpty then l.atEnd else l.nextToken

/-- The token ahead may still turn out to be a key, so that the mark of a key comes before it. -/
def awaitsKey (l : Lexer) : Bool :=
  l.possibleKeys.any (·.position == l.taken)

/-- Reads on until the token ahead is certain. Every step takes a character or ends the reading. -/
def fill : (steps : Nat) → Lexer → Except Error Lexer
  | 0, l => .ok l
  | steps + 1, l =>
    if l.finished then .ok l
    else if l.tokens.isEmpty then do fill steps (← l.readOn)
    else do
      let l ← l.dropLapsed
      if l.awaitsKey then fill steps (← l.readOn) else return l

/-- The token ahead; after the end of the document, its end. -/
def ahead (l : Lexer) : Except Error (Token × Lexer) := do
  let l ← l.fill (l.cursor.steps + 1)
  return (l.tokens.headD .streamEnd, l)

/-- Takes the token ahead. -/
def take (l : Lexer) : Lexer :=
  { l with tokens := l.tokens.tail, taken := l.taken + 1 }

end Lexer

/-- A character that a document may hold. -/
def isDocumentChar (c : CodePoint) : Bool :=
  let n := c.toNat
  n == 0x09 || n == 0x0a || n == 0x0d || (0x20 ≤ n && n ≤ 0x7e) || n == 0x85 ||
    (0xa0 ≤ n && n ≤ 0xd7ff) || (0xe000 ≤ n && n ≤ 0xfffd) || 0x10000 ≤ n

/-- The state before a document, all of whose characters have to be admissible. -/
def Lexer.ofDocument (document : Text) : Except Error Lexer :=
  if document.all isDocumentChar then .ok (.start document) else .error .malformed

end SourceJump.Yaml
