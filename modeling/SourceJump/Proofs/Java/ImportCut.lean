import SourceJump.Proofs.Buffer.RegexWays
import SourceJump.Proofs.Java.ClassImportRegex
import SourceJump.Proofs.Java.ImportLineRegex
import SourceJump.Proofs.Java.TypeParameters

/-!
# The parts of a declaration

The three expressions for imports begin alike, with blanks, the word `import` and blanks, and then capture a name. So a
match of any of them is cut in the same way (`exists_importCut`).
-/

namespace SourceJump.Java

open Regex

/-- `^\s*import\s+` -/
def importFrontRegexes : List Regex := [lineStart, star (one isBlank), lit importWord, plus isBlank]

theorem singleImportRegex_eq (name : Text) : singleImportRegex name = inRow (importFrontRegexes ++
    group (inRow [plus isDottedChar, lit (CodePoint.char '.' :: name)]) :: [star (one isBlank), lit [';']]) := rfl

theorem importLineRegex_eq : importLineRegex =
    inRow (importFrontRegexes ++ group qualifiedNameRegex :: [star (one isBlank), lit [';']]) := rfl

theorem wildcardRegex_eq : wildcardRegex = inRow (importFrontRegexes ++
    group (plus isDottedChar) :: [lit ['.', '*'], star (one isBlank), lit [';']]) := rfl

/-- The text is blanks, the word `import` and blanks. -/
structure IsImportFront (t blanks gap : Text) : Prop where
  eq : t = blanks ++ (importWord ++ gap)
  isGap_blanks : IsGap blanks
  gap_ne_nil : gap ≠ []
  isGap : IsGap gap

theorem isGap_of_spells {t : Text} (h : (star (one isBlank)).Spells t) : IsGap t := h.within fun _ hc => hc

theorem exists_isImportFront {t : Text} (h : (inRow importFrontRegexes).Spells t) :
    ∃ blanks gap, IsImportFront t blanks gap := by
  obtain ⟨line, u, rfl, hline, hu⟩ := h.of_seq
  obtain ⟨blanks, v, rfl, hblanks, hv⟩ := hu.of_seq
  obtain ⟨word, gap, rfl, hword, hgap⟩ := hv.of_seq
  obtain rfl := hline.of_lineStart
  obtain rfl := hword.of_lit
  obtain ⟨hne, hchars⟩ := hgap.of_inRow_singleton.of_plus
  exact ⟨blanks, gap, rfl, isGap_of_spells hblanks, hne, hchars⟩

/-- A match of an expression for imports, cut by the name that is captured. -/
structure ImportCut (r : Regex) (rs : List Regex) (t : Text) (m : Match) where
  cut : Cut
  blanks : Text
  gap : Text
  isOf : cut.IsOf (inRow (importFrontRegexes ++ group r :: rs)) t m
  isImportFront : IsImportFront cut.front blanks gap
  captured_spelled : r.Spells cut.captured
  back_spelled : (inRow rs).Spells cut.back

theorem exists_importCut {r : Regex} {rs : List Regex} (hr : r.Silent) (hrs : (inRow rs).Silent) {t : Text}
    {point : Nat} {m : Match} (hm : (inRow (importFrontRegexes ++ group r :: rs)).pattern.search t point = some m) :
    Nonempty (ImportCut r rs t m) := by
  have hfront : (inRow importFrontRegexes).Silent := by simp [importFrontRegexes, plus, inRow, Silent]
  obtain ⟨cut, hcut, hspells, hcaptured, hback⟩ := exists_cut_of_search hfront hr hrs hm
  obtain ⟨blanks, gap, himport⟩ := exists_isImportFront hspells
  exact ⟨⟨cut, blanks, gap, hcut, himport, hcaptured, hback⟩⟩

theorem silent_semicolon : (inRow [star (one isBlank), lit [';']]).Silent := by simp [inRow, Silent]

theorem exists_importCut_of_singleImport {name t : Text} {point : Nat} {m : Match}
    (hm : (singleImportRegex name).pattern.search t point = some m) :
    Nonempty (ImportCut (inRow [plus isDottedChar, lit (CodePoint.char '.' :: name)])
      [star (one isBlank), lit [';']] t m) := by
  rw [singleImportRegex_eq] at hm
  exact exists_importCut (by simp [plus, inRow, Silent]) silent_semicolon hm

namespace ImportCut

variable {r : Regex} {rs : List Regex} {t : Text} {m : Match} (h : ImportCut r rs t m)
include h

/-- The match begins with the blanks before the word `import`. -/
theorem drop_start : t.drop m.start =
    h.blanks ++ (importWord ++ (h.gap ++ (h.cut.captured ++ (h.cut.back ++ h.cut.rest)))) := by
  have hdrop := h.cut.drop_before
  rw [← h.isOf.start_eq, h.isImportFront.eq] at hdrop
  refine (congrArg (List.drop m.start) h.isOf.text_eq).trans (hdrop.trans ?_)
  simp

theorem takeWhile_drop_start : (t.drop m.start).takeWhile isBlank = h.blanks := by
  rw [h.drop_start]
  exact Text.takeWhile_append_of_stop h.isImportFront.isGap_blanks (by simp [importWord]; decide)

theorem start_eq : h.cut.start = m.start + h.blanks.length + (importWord ++ h.gap).length := by
  rw [Cut.start, ← h.isOf.start_eq, h.isImportFront.eq, List.length_append, Nat.add_assoc]

end ImportCut

end SourceJump.Java
