import SourceJump.Proofs.Buffer.RegexReaders
import SourceJump.Proofs.Java.ClassImports
import SourceJump.Proofs.Java.ImportRegex

/-!
# The regular expression for the import of a class

`^\s*import\s+([\w$.]+\.name)\s*;` first lets `[\w$.]+` take all dotted characters and gives them back one by one until
the name and the end of the declaration follow. `readNamed` does just that, so searching for the expression is
searching for the import of the class, whatever the name is (`pattern_singleImportRegex`).
-/

namespace SourceJump.Java

open Regex

/-- `^\s*import\s+([\w$.]+\.name)\s*;` -/
def singleImportRegex (name : Text) : Regex :=
  inRow [lineStart, star (one isBlank), lit importWord, plus isBlank,
    group (inRow [plus isDottedChar, lit (CodePoint.char '.' :: name)]), star (one isBlank), lit [';']]

/-- Blanks that have to be there. -/
theorem reads_afterBlanks {rs : List Regex} {read : Text → Option Reading} (h : Reads rs read)
    (hf : FailsOn isBlank read) : Reads (plus isBlank :: rs) fun t => (afterBlanks? t).bind read := by
  refine (h.plus_one hf).congr fun t => ?_
  rw [afterBlanks?_eq]
  split <;> rfl

theorem reads_semicolon : Reads [star (one isBlank), lit [';']] fun t =>
    (afterSemicolon? t).map fun rest => ⟨[], rest⟩ := by
  refine ((Reads.nil.lit [';']).star_one (failsOn_lit rfl (by decide) _)).congr fun t => ?_
  unfold afterSemicolon?
  cases t.dropWhile isBlank with
  | nil => rfl
  | cons c rest =>
    by_cases hc : c = CodePoint.char ';'
    · subst hc
      rfl
    · have hnone : Text.after? [CodePoint.char ';'] (c :: rest) = none := by
        simp [Text.after?, Ne.symm hc]
      simp only [hnone, Option.bind_none]
      split
      · next tail htail => exact absurd (List.cons.inj htail).1 hc
      · rfl

/-- The name and what follows it. -/
theorem reads_named (name : Text) :
    Reads [group (inRow [plus isDottedChar, lit (CodePoint.char '.' :: name)]), star (one isBlank), lit [';']]
      fun body => readNamed name body (body.takeWhile isDottedChar).length := by
  refine (reads_semicolon.group_plus_lit isDottedChar _).congr fun body => ?_
  rw [readNamed_eq_findSome?]
  congr 1
  funext i
  rw [readNamedAt]
  cases Text.after? (CodePoint.char '.' :: name) (body.drop (i + 1)) with
  | none => rfl
  | some tail =>
    rw [Option.bind_some, Option.bind_some, Option.map_map]
    rfl

/-- No name begins with a blank. -/
theorem failsOn_readNamed (name : Text) :
    FailsOn isBlank fun body => readNamed name body (body.takeWhile isDottedChar).length := by
  intro c t hc
  have hrun : (c :: t).takeWhile isDottedChar = [] :=
    List.takeWhile_cons_of_neg (by rw [not_isDottedChar_of_isBlank hc]; decide)
  show readNamed name (c :: t) ((c :: t).takeWhile isDottedChar).length = none
  rw [hrun]
  rfl

/-- Searching for the regular expression is searching for the import of the class. -/
theorem pattern_singleImportRegex (name : Text) : (singleImportRegex name).pattern = singleImport name := by
  have hword := (reads_afterBlanks (reads_named name) (failsOn_readNamed name)).lit importWord
  have hline := hword.star_one (p := isBlank) (failsOn_lit rfl (by decide) _)
  refine pattern_lineStart (hline.congr fun t => ?_) suffix_of_readSingleImport
  rw [readSingleImport, afterImport?]
  exact (Option.bind_assoc _ _ _).symm

end SourceJump.Java
