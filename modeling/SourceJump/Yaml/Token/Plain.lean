import SourceJump.Yaml.Cursor

/-!
# Plain scalars

A plain scalar has no marks around it. It ends before a comment, before a colon that a gap follows,
before the punctuation of a flow collection that it stands in, and where the indentation falls below
that of its collection. A single line end inside it folds to a space; of several the first is
dropped.
-/

namespace SourceJump.Yaml

/-- A character of the punctuation of flow collections. -/
def isFlowMark (c : CodePoint) : Bool :=
  c == ',' || c == '[' || c == ']' || c == '\x7b' || c == '\x7d'

/-- The longest stretch of a plain scalar without gaps. -/
def plainWord (inFlow : Bool) : Text → Text
  | [] => []
  | c :: rest =>
    let following := rest.headD nul
    if isGap c || (c == ':' && (isGap following || (inFlow && isFlowMark following))) ||
        (inFlow && (c == '?' || isFlowMark c)) then []
    else c :: plainWord inFlow rest

/-- Reads line ends and the spaces between them; `none` when the mark of a document follows one of
the line ends. -/
def plainBreaks : (steps : Nat) → Cursor → Option Text × Cursor
  | 0, c => (some [], c)
  | steps + 1, c =>
    if c.peek = ' ' then plainBreaks steps c.next
    else
      match c.lineBreak? with
      | none => (some [], c)
      | some (ch, c) =>
        if c.atDocumentMark then (none, c)
        else
          let (breaks, c) := plainBreaks steps c
          (breaks.map (ch :: ·), c)

/-- What a gap inside a plain scalar contributes to it. -/
structure PlainGap where
  /-- The characters that the gap stands for; empty when the scalar ends here. -/
  content : Text
  /-- A line end was passed. -/
  newLine : Bool
  cursor : Cursor

/-- A line end and those after it, folded. -/
def foldBreaks (first : CodePoint) (others : Text) : Text :=
  if first ≠ '\n' then first :: others else if others.isEmpty then [' '] else others

/-- Reads the gap after a stretch of a plain scalar. -/
def plainGap (c : Cursor) : PlainGap :=
  let (spaces, c) := c.span (· == ' ')
  match c.lineBreak? with
  | none => ⟨spaces, false, c⟩
  | some (ch, c) =>
    if c.atDocumentMark then ⟨[], true, c⟩
    else
      match plainBreaks c.steps c with
      | (none, c) => ⟨[], true, c⟩
      | (some breaks, c) => ⟨foldBreaks ch breaks, true, c⟩

/-- A plain scalar: its content, whether a line end was the last thing read, and the place after. -/
structure PlainScalar where
  content : Text
  newLine : Bool
  cursor : Cursor

/-- Reads on after `content` and `gap`. -/
def plainFrom (inFlow : Bool) (indent : Int) (content gap : Text) (newLine : Bool) :
    (steps : Nat) → Cursor → PlainScalar
  | 0, c => ⟨content, newLine, c⟩
  | steps + 1, c =>
    let word := plainWord inFlow c.rest
    if c.peek = '#' || word.isEmpty then ⟨content, newLine, c⟩
    else
      let content := content ++ gap ++ word
      let next := plainGap (c.advance word.length)
      if next.content.isEmpty || next.cursor.peek = '#' ||
          (!inFlow && (next.cursor.column : Int) < indent) then
        ⟨content, next.newLine, next.cursor⟩
      else plainFrom inFlow indent content next.content next.newLine steps next.cursor

/-- Reads a plain scalar in a collection of the given indentation. -/
def readPlain (inFlow : Bool) (indent : Int) (c : Cursor) : PlainScalar :=
  plainFrom inFlow (indent + 1) [] [] false c.steps c

end SourceJump.Yaml
