import SourceJump.Buffer.Pattern
import SourceJump.Path.Basic

/-!
# Class names and import declarations

Below a source root, the file of the class `a.b.C` is `a/b/C` with the extension of the language.

An import declaration stands at the start of a line, blanks before it aside: the word `import`,
blanks, a dotted name and a semicolon, blanks before the semicolon aside. Line ends are blanks, so
a declaration may run over several lines. Three patterns read it: one for a whole package, one for
a single class whose name is known, and one for any single class on a line of its own.
-/

namespace SourceJump.Java

/-! ### Names and source files -/

/-- The components of a dotted name, empty ones left out, blanks around the name aside. -/
def components (name : Text) : List Text :=
  (name.strip.split '.').filter (! ·.isEmpty)

/-- The full name of a class of a package. -/
def memberName (package name : Text) : Text :=
  package ++ CodePoint.char '.' :: name

/-- The path of a class below a source root; dots before the extension are dropped. -/
def relativePath (name extension : Text) : Text :=
  Path.withSuffix (Text.join [Path.separator] (components name))
    (extension.dropWhile (· = Path.suffixMark))

/-! ### Imports -/

/-- The word `import`. -/
def importWord : Text := ['i', 'm', 'p', 'o', 'r', 't']

/-- The text after one or more blanks. -/
def afterBlanks? : Text → Option Text
  | [] => none
  | c :: rest => if isBlank c then some (rest.dropWhile isBlank) else none

theorem suffix_of_afterBlanks? {t rest : Text} (h : afterBlanks? t = some rest) : rest <:+ t := by
  unfold afterBlanks? at h
  split at h
  · simp at h
  · split at h
    · cases h
      exact (List.dropWhile_suffix _).trans (List.suffix_cons _ _)
    · simp at h

/-- The text after leading blanks, the word `import` and the blanks that follow it. -/
def afterImport? (t : Text) : Option Text :=
  (Text.after? importWord (t.dropWhile isBlank)).bind afterBlanks?

theorem suffix_of_afterImport? {t rest : Text} (h : afterImport? t = some rest) : rest <:+ t := by
  obtain ⟨tail, htail, hrest⟩ := Option.bind_eq_some_iff.1 h
  exact (suffix_of_afterBlanks? hrest).trans
    ((Text.suffix_of_after? htail).trans (List.dropWhile_suffix _))

/-- The text after a semicolon, blanks before it aside. -/
def afterSemicolon? (t : Text) : Option Text :=
  match t.dropWhile isBlank with
  | ';' :: rest => some rest
  | _ => none

theorem suffix_of_afterSemicolon? {t rest : Text} (h : afterSemicolon? t = some rest) :
    rest <:+ t := by
  unfold afterSemicolon? at h
  split at h
  · next tail htail =>
    cases h
    exact (List.suffix_cons _ _).trans (htail ▸ List.dropWhile_suffix _)
  · simp at h

/-- Reads `import p.*;` and captures `p`: the run of dotted characters ends in the dot, and
something stands before that dot. -/
def readWildcard (t : Text) : Option Reading := do
  let body ← afterImport? t
  let run := body.takeWhile isDottedChar
  let tail ← Text.after? ['*'] (body.dropWhile isDottedChar)
  let rest ← afterSemicolon? tail
  if run.getLast? = some '.' && 1 < run.length then some ⟨[run.dropLast], rest⟩ else none

theorem suffix_of_readWildcard {t : Text} {r : Reading} (h : readWildcard t = some r) :
    r.rest <:+ t := by
  obtain ⟨body, hbody, h⟩ := Option.bind_eq_some_iff.1 h
  obtain ⟨tail, htail, h⟩ := Option.bind_eq_some_iff.1 h
  obtain ⟨rest, hrest, h⟩ := Option.bind_eq_some_iff.1 h
  split at h
  · cases h
    exact (suffix_of_afterSemicolon? hrest).trans <| (Text.suffix_of_after? htail).trans <|
      (List.dropWhile_suffix _).trans (suffix_of_afterImport? hbody)
  · simp at h

/-- The import of all classes of a package, at the start of a line. -/
def wildcardImport : Pattern :=
  .onLineStart readWildcard suffix_of_readWildcard

/-- No import stands at the end of the text. -/
theorem readAt_wildcardImport_nil (before : Text) : wildcardImport.readAt before [] = none := by
  simp [wildcardImport, Pattern.onLineStart, readWildcard, afterImport?, Text.after?, importWord]

/-- Reads a dotted name of `taken` dotted characters, a dot, `name` and a semicolon, or the same
with fewer characters before the dot, but at least one. -/
def readNamed (name body : Text) : (taken : Nat) → Option Reading
  | 0 => none
  | taken + 1 =>
    let rest := (Text.after? ('.' :: name) (body.drop (taken + 1))).bind afterSemicolon?
    match rest with
    | some rest => some ⟨[body.take (taken + 1) ++ CodePoint.char '.' :: name], rest⟩
    | none => readNamed name body taken

theorem suffix_of_readNamed {name body : Text} {taken : Nat} {r : Reading}
    (h : readNamed name body taken = some r) : r.rest <:+ body := by
  induction taken with
  | zero => simp [readNamed] at h
  | succ taken ih =>
    unfold readNamed at h
    dsimp only at h
    split at h
    · next rest hrest =>
      cases h
      obtain ⟨tail, htail, hrest⟩ := Option.bind_eq_some_iff.1 hrest
      exact (suffix_of_afterSemicolon? hrest).trans
        ((Text.suffix_of_after? htail).trans (List.drop_suffix _ _))
    · exact ih h

/-- Reads the import of the class `name` from any package and captures the whole dotted name. -/
def readSingleImport (name t : Text) : Option Reading := do
  let body ← afterImport? t
  readNamed name body (body.takeWhile isDottedChar).length

theorem suffix_of_readSingleImport {name t : Text} {r : Reading}
    (h : readSingleImport name t = some r) : r.rest <:+ t := by
  obtain ⟨body, hbody, h⟩ := Option.bind_eq_some_iff.1 h
  exact (suffix_of_readNamed h).trans (suffix_of_afterImport? hbody)

/-- The import of the class `name` from any package, at the start of a line. -/
def singleImport (name : Text) : Pattern :=
  .onLineStart (readSingleImport name) suffix_of_readSingleImport

/-- A dotted name: at least two components, none of them empty. -/
def isQualified (name : Text) : Bool :=
  let components := name.split '.'
  1 < components.length && components.all (! ·.isEmpty)

/-- Reads the import of one class and captures its dotted name. -/
def readImportLine (t : Text) : Option Reading := do
  let body ← afterImport? t
  let name := body.takeWhile isDottedChar
  let rest ← afterSemicolon? (body.dropWhile isDottedChar)
  if isQualified name then some ⟨[name], rest⟩ else none

theorem suffix_of_readImportLine {t : Text} {r : Reading} (h : readImportLine t = some r) :
    r.rest <:+ t := by
  obtain ⟨body, hbody, h⟩ := Option.bind_eq_some_iff.1 h
  obtain ⟨rest, hrest, h⟩ := Option.bind_eq_some_iff.1 h
  split at h
  · cases h
    exact (suffix_of_afterSemicolon? hrest).trans
      ((List.dropWhile_suffix _).trans (suffix_of_afterImport? hbody))
  · simp at h

/-- The import of one class at the start of the text. -/
def importLine : Pattern :=
  .onTextStart readImportLine suffix_of_readImportLine

end SourceJump.Java
