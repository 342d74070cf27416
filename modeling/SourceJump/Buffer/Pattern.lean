import SourceJump.Text.Classes

/-!
# Patterns

A pattern says, for one position of a text, how the text from there on is read: not at all, or with
some captured groups and a rest that the reading leaves. Whether a reading may start at a position
can depend on all that stands before it. Several patterns are tied to the start of a line, for which the
character before the position is enough, and one that looks further back is a pattern as well.
Searching for a pattern is trying it at one position after the other.
-/

namespace SourceJump

/-- One reading of a text: what it captures and what it leaves. -/
structure Reading where
  groups : List Text
  rest : Text
  deriving DecidableEq

/-- How to read a text from a position, given the text before that position. What stands before comes
backwards, the nearest character first. A reading leaves an end of the text. -/
structure Pattern where
  readAt : (before : Text) → Text → Option Reading
  rest_suffix : ∀ {before t r}, readAt before t = some r → r.rest <:+ t

namespace Pattern

/-- A position is at the start of a line when no character stands before it, or a line feed does. -/
def startsLine (before : Option CodePoint) : Bool :=
  before.isNone || before = some '\n'

/-- A pattern that is tied to the start of a line. -/
def onLineStart (read : Text → Option Reading)
    (rest_suffix : ∀ {t r}, read t = some r → r.rest <:+ t) : Pattern where
  readAt before t := if startsLine before.head? then read t else none
  rest_suffix h := by
    split at h
    · exact rest_suffix h
    · simp at h

/-- A pattern that is tied to the start of the text. -/
def onTextStart (read : Text → Option Reading)
    (rest_suffix : ∀ {t r}, read t = some r → r.rest <:+ t) : Pattern where
  readAt before t := if before.isEmpty then read t else none
  rest_suffix h := by
    split at h
    · exact rest_suffix h
    · simp at h

/-- The empty text, anywhere. -/
def nothing : Pattern where
  readAt _ t := some ⟨[], t⟩
  rest_suffix h := by cases h; exact List.suffix_rfl

/-- The empty text at the start of a line. -/
def lineStart : Pattern :=
  onLineStart (fun t => some ⟨[], t⟩) fun h => by cases h; exact List.suffix_rfl

/-- The empty text at the end of a line: before a line feed and at the end of the text. -/
def lineEnd : Pattern where
  readAt _ t := if t.isEmpty || t.head? = some '\n' then some ⟨[], t⟩ else none
  rest_suffix h := by
    split at h
    · cases h; exact List.suffix_rfl
    · simp at h

/-- A line feed. -/
def newline : Pattern where
  readAt _ t :=
    match t with
    | '\n' :: rest => some ⟨[], rest⟩
    | _ => none
  rest_suffix h := by
    split at h
    · cases h; exact List.suffix_cons _ _
    · simp at h

/-- The longest run, possibly empty, of one character. -/
def run (c : CodePoint) : Pattern where
  readAt _ t := some ⟨[], t.dropWhile (· = c)⟩
  rest_suffix h := by cases h; exact List.dropWhile_suffix _

/-- Reads the literal `keyword`, blanks, and a word, which is captured. -/
def readKeywordThenWord (keyword t : Text) : Option Reading :=
  match Text.after? keyword t with
  | none => none
  | some rest =>
    let tail := rest.dropWhile isBlank
    let word := tail.takeWhile isWordChar
    if tail.length < rest.length && !word.isEmpty then
      some ⟨[word], tail.dropWhile isWordChar⟩
    else none

theorem suffix_of_readKeywordThenWord {keyword t : Text} {r : Reading}
    (h : readKeywordThenWord keyword t = some r) : r.rest <:+ t := by
  unfold readKeywordThenWord at h
  split at h
  · simp at h
  · next rest hrest =>
    dsimp only at h
    split at h
    · cases h
      exact (List.dropWhile_suffix _).trans
        ((List.dropWhile_suffix _).trans (Text.suffix_of_after? hrest))
    · simp at h

/-- The literal `keyword` at the very start of a line, blanks, and a word. -/
def keywordThenWord (keyword : Text) : Pattern :=
  onLineStart (readKeywordThenWord keyword) suffix_of_readKeywordThenWord

/-- The first reading of the text from this position on: how many characters lie before it, and what
it reads. The end of the text is the last position tried. -/
def findFrom (p : Pattern) (before : Text) : Text → Option (Nat × Reading)
  | [] => (p.readAt before []).map (0, ·)
  | c :: rest =>
    match p.readAt before (c :: rest) with
    | some reading => some (0, reading)
    | none => (p.findFrom (c :: before) rest).map fun (skipped, reading) => (skipped + 1, reading)

end Pattern

/-- A place where a pattern was found: offsets of its first character and of the one after its last,
and what it captured. -/
structure Match where
  start : Nat
  stop : Nat
  groups : List Text
  deriving DecidableEq

namespace Pattern

/-- The first place at or after `point` where the text fits the pattern. A point beyond the end
counts as the end. The text before the point stays in view: a line starts only where a line of the
whole text does. -/
def search (p : Pattern) (text : Text) (point : Nat) : Option Match :=
  let start := min point text.length
  (p.findFrom (text.take start).reverse (text.drop start)).map fun (skipped, reading) =>
    ⟨start + skipped, text.length - reading.rest.length, reading.groups⟩

/-- The match at the start of a text that is looked at on its own. -/
def matchStart (p : Pattern) (text : Text) : Option Match :=
  (p.readAt [] text).map fun reading =>
    ⟨0, text.length - reading.rest.length, reading.groups⟩

end Pattern

end SourceJump
