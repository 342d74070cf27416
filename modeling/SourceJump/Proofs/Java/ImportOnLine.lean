import SourceJump.Proofs.Buffer.Cursor
import SourceJump.Proofs.Java.ImportCut

/-!
# The import on one line among those of the text

A line of a text that declares the import of a class is looked at on its own. In the text the declaration begins at the
word `import` of the line (`LineImport.importsClassAt`). The search for the class by its name meets this declaration,
unless it meets one that captures a name further up (`LineImport.groups_of_search`). The last component
of the name is the name under the cursor wherever the cursor touches it (`LineImport.wordAt_eq`).
-/

namespace SourceJump.Java

open Regex

/-- The end of a declaration is blanks and a semicolon. -/
theorem exists_of_spells_semicolon {t : Text} (h : (inRow [star (one isBlank), lit [';']]).Spells t) :
    ∃ gap, t = gap ++ [CodePoint.char ';'] ∧ IsGap gap := by
  obtain ⟨gap, u, rfl, hgap, hu⟩ := h.of_seq
  obtain rfl := hu.of_inRow_singleton.of_lit
  exact ⟨gap, rfl, isGap_of_spells hgap⟩

theorem DeclaresClass.of_parts {gap full gap' package name rest : Text} (hne : gap ≠ []) (hgap : IsGap gap)
    (hfull : full = package ++ CodePoint.char '.' :: name) (hdotted : ∀ c ∈ full, isDottedChar c = true)
    (hpackage : package ≠ []) (hgap' : IsGap gap') :
    DeclaresClass name (importWord ++ (gap ++ (full ++ (gap' ++ CodePoint.char ';' :: rest)))) full rest := by
  have hstop : ∀ c ∈ (gap' ++ CodePoint.char ';' :: rest).head?, isDottedChar c = false :=
    not_isDottedChar_of_afterSemicolon? (afterSemicolon?_eq_some_iff.2 ⟨gap', rfl, hgap'⟩)
  exact ⟨gap, _, gap', package, rfl, hne, hgap, Text.takeWhile_append_of_stop hdotted hstop, hfull, hpackage,
    Text.dropWhile_append_of_stop hdotted hstop, hgap'⟩

/-- The word `import` does not begin again within a declaration before the name. -/
theorem add_length_le_of_later_import {t gap rest : Text} {p q : Nat} (h : t.drop p = importWord ++ (gap ++ rest))
    (hgap : IsGap gap) (hq : (t.drop q).head? = some (CodePoint.char 'i')) (hlt : p < q) :
    p + (importWord ++ gap).length ≤ q := by
  obtain ⟨k, rfl⟩ := Nat.exists_eq_add_of_lt hlt
  by_contra hinside
  obtain ⟨tail, htail⟩ : ∃ tail : Text, tail = importWord.tail ++ gap := ⟨_, rfl⟩
  have hword : t.drop p = CodePoint.char 'i' :: (tail ++ rest) := by
    rw [h, htail]
    simp [importWord]
  have hk : k < tail.length := by
    rw [htail]
    simp only [importWord, List.tail_cons, List.length_append, List.length_cons, List.length_nil] at hinside ⊢
    omega
  rw [show p + k + 1 = p + (k + 1) by omega, ← List.drop_drop, hword, List.drop_succ_cons, List.head?_drop,
    List.getElem?_append_left hk] at hq
  have hmem : CodePoint.char 'i' ∈ tail := List.mem_of_getElem? hq
  rw [htail, List.mem_append] at hmem
  rcases hmem with hmem | hmem
  · revert hmem
    decide
  · have hblank := hgap _ hmem
    revert hblank
    decide

/-- A text, cut by a line that declares the import of the class `name` of `package`. -/
structure LineImport (t package name : Text) where
  /-- The lines before. -/
  before : Text
  blanks : Text
  gap : Text
  gap' : Text
  /-- All that follows the semicolon. -/
  rest : Text
  text_eq : t = before ++ (blanks ++ (importWord ++ (gap ++ ((package ++ CodePoint.char '.' :: name) ++
    (gap' ++ CodePoint.char ';' :: rest)))))
  startsLine : Pattern.startsLine before.getLast? = true
  isGap_blanks : IsGap blanks
  gap_ne_nil : gap ≠ []
  isGap : IsGap gap
  isGap' : IsGap gap'
  isDottedName : IsDottedName (package ++ CodePoint.char '.' :: name)
  /-- The name is the last component. -/
  bare : CodePoint.char '.' ∉ name

namespace LineImport

variable {t package name : Text} (h : LineImport t package name)

/-- The offset of the word `import`. -/
def place : Nat := h.before.length + h.blanks.length

/-- The offset of the dotted name. -/
def start : Nat := h.place + (importWord ++ h.gap).length

include h

theorem isName : IsName name := (h.isDottedName.last h.bare).2

theorem take_place : t.take h.place = h.before ++ h.blanks := by
  rw [place, ← List.length_append]
  refine (congrArg (List.take (h.before ++ h.blanks).length) h.text_eq).trans ?_
  rw [← List.append_assoc, List.take_left]

theorem drop_place : t.drop h.place = importWord ++ (h.gap ++ ((package ++ CodePoint.char '.' :: name) ++
    (h.gap' ++ CodePoint.char ';' :: h.rest))) := by
  rw [place, ← List.length_append]
  refine (congrArg (List.drop (h.before ++ h.blanks).length) h.text_eq).trans ?_
  rw [← List.append_assoc, List.drop_left]

theorem importsClassAt : ImportsClassAt t h.place name (package ++ CodePoint.char '.' :: name) := by
  constructor
  · rw [h.take_place]
    exact endsInBlankLine_iff.2 ⟨h.before, h.blanks, rfl, h.startsLine, h.isGap_blanks⟩
  · rw [h.drop_place]
    have hname := (h.isDottedName.last h.bare).1
    exact ⟨h.rest, .of_parts h.gap_ne_nil h.isGap rfl h.isDottedName.isDottedChar hname h.isGap'⟩

/-- The last component is the name under the cursor from its start to its end. -/
theorem wordAt_eq {o : Nat} (hstart : h.start + (package.length + 1) ≤ o)
    (hstop : o ≤ h.start + (package ++ CodePoint.char '.' :: name).length) : Buffer.wordAt t o = name := by
  obtain ⟨front, hfront⟩ : ∃ front : Text, front = h.before ++ (h.blanks ++ (importWord ++ (h.gap ++ package))) :=
    ⟨_, rfl⟩
  have htext : t = (front ++ [CodePoint.char '.']) ++ (name ++ (h.gap' ++ CodePoint.char ';' :: h.rest)) :=
    h.text_eq.trans (by simp [hfront])
  have hlength : (front ++ [CodePoint.char '.']).length = h.start + (package.length + 1) := by
    simp only [hfront, start, place, List.length_append, List.length_cons, List.length_nil]
    omega
  refine (congrArg (Buffer.wordAt · o) htext).trans ?_
  apply Buffer.wordAt_of_cut h.isName.chars
  · intro c hc
    obtain rfl : CodePoint.char '.' = c := by simpa using hc
    decide
  · intro c hc
    have hstop := not_isDottedChar_of_afterSemicolon? (afterSemicolon?_eq_some_iff.2 ⟨h.gap', rfl, h.isGap'⟩) c hc
    by_contra hname
    rw [isDottedChar_of_isNameChar (by simpa using hname)] at hstop
    exact absurd hstop (by decide)
  · rwa [hlength]
  · rw [List.length_append, List.length_cons] at hstop
    omega

/-- The search for the class finds the import of the line, or one whose name stands further up. -/
theorem groups_of_search {m : Match} (hm : (singleImportRegex name).pattern.search t 0 = some m)
    (hearlier : ∀ start stop, (singleImportRegex name).groupSpans t m.start = some [(start, stop)] → start < h.start →
      m.groups = [package ++ CodePoint.char '.' :: name]) : m.groups = [package ++ CodePoint.char '.' :: name] := by
  have hsearch := hm
  rw [pattern_singleImportRegex] at hsearch
  have hlater := place_le_of_search h.isName.chars hsearch h.importsClassAt
  rcases Nat.lt_or_eq_of_le hlater with hlt | heq
  · -- The declaration that is found begins before the one of the line, and so its name stands before it, too.
    obtain ⟨c⟩ := exists_importCut_of_singleImport hm
    rw [c.takeWhile_drop_start] at hlt
    have hdrop : t.drop (m.start + c.blanks.length) =
        importWord ++ (c.gap ++ (c.cut.captured ++ (c.cut.back ++ c.cut.rest))) := by
      rw [← List.drop_drop, c.drop_start, List.drop_left]
    have hword : (t.drop h.place).head? = some (CodePoint.char 'i') := by
      rw [h.drop_place]
      rfl
    have hbefore := add_length_le_of_later_import hdrop c.isImportFront.isGap hword hlt
    refine hearlier _ _ c.isOf.spans_eq ?_
    rw [← c.start_eq] at hbefore
    simp only [start, importWord, List.length_append, List.length_cons]
    omega
  · obtain ⟨r, hr, hgroups, -⟩ := Pattern.exists_readFrom_of_search hsearch
    obtain ⟨full, hfull, himport⟩ := importsClassAt_of_readFrom h.isName.chars hr
    rw [heq] at himport
    rw [hgroups, hfull, himport.unique h.isName.chars h.importsClassAt]

theorem exists_search : ∃ m, (singleImportRegex name).pattern.search t 0 = some m := by
  rw [pattern_singleImportRegex]
  exact Option.ne_none_iff_exists'.1 (search_singleImport_ne_none h.isName.chars h.importsClassAt)

end LineImport

/-- Trying a pattern on a text that stands on its own is searching from its start. -/
theorem search_of_matchStart {p : Pattern} {t : Text} {m : Match} (h : p.matchStart t = some m) :
    p.search t 0 = some m ∧ m.start = 0 := by
  obtain ⟨r, hr, rfl⟩ := Option.map_eq_some_iff.1 h
  exact ⟨Pattern.search_eq_some_iff.2 ⟨r, hr, rfl, rfl, by simp, Nat.zero_le _, by simp⟩, rfl⟩

/-- A line that the expression for imports reads declares an import in the text. The offsets in the text are those
in the line, moved by the start of the line. -/
theorem exists_lineImport {t : Text} {offset : Int} {m : Match} {package name : Text}
    (hm : importLineRegex.pattern.matchStart (Buffer.lineAt t offset) = some m)
    (hgroups : m.groups = [package ++ CodePoint.char '.' :: name]) (hbare : CodePoint.char '.' ∉ name) :
    ∃ h : LineImport t package name, ∃ start stop,
      importLineRegex.groupSpans (Buffer.lineAt t offset) 0 = some [(start, stop)] ∧
      h.start = Buffer.lineStart t offset + start ∧
      h.start + (package ++ CodePoint.char '.' :: name).length = Buffer.lineStart t offset + stop := by
  obtain ⟨hsearch, hzero⟩ := search_of_matchStart hm
  obtain ⟨before, rest, ht, hbefore, hline⟩ := Buffer.exists_cut_lineAt t offset
  rw [importLineRegex_eq] at hsearch ⊢
  obtain ⟨c⟩ := exists_importCut silent_qualifiedNameRegex silent_semicolon hsearch
  have hnil : c.cut.before = [] := by
    have hlength := c.isOf.start_eq
    rw [hzero] at hlength
    exact List.eq_nil_of_length_eq_zero hlength.symm
  obtain ⟨gap', hback, hgap'⟩ := exists_of_spells_semicolon c.back_spelled
  have hcaptured : c.cut.captured = package ++ CodePoint.char '.' :: name :=
    List.singleton_inj.1 (c.isOf.groups_eq.symm.trans hgroups)
  have hdotted := (isQualifiedName_of_spells c.captured_spelled).isDottedName
  have hspans := c.isOf.spans_eq
  rw [hzero] at hspans
  rw [hcaptured] at hdotted
  have hcut := c.drop_start
  rw [hzero, List.drop_zero, hcaptured, hback] at hcut
  refine ⟨⟨before, c.blanks, c.gap, gap', c.cut.rest ++ rest, ?_, hline, c.isImportFront.isGap_blanks,
    c.isImportFront.gap_ne_nil, c.isImportFront.isGap, hgap', hdotted, hbare⟩, _, _, hspans, ?_, ?_⟩
  · conv_lhs => rw [ht, hcut]
    simp
  · rw [c.start_eq, hzero, ← hbefore]
    simp only [LineImport.start, LineImport.place]
    omega
  · rw [Cut.stop, c.start_eq, hzero, hcaptured, ← hbefore]
    simp only [LineImport.start, LineImport.place]
    omega

end SourceJump.Java
