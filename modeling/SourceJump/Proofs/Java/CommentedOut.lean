import SourceJump.Path.Basic
import SourceJump.Proofs.Java.Comments
import SourceJump.Proofs.Java.HeaderCut
import SourceJump.Proofs.Java.ImportCut

/-!
# Declarations in comments

Declarations are looked for at starts of lines, so that slashes before a declaration on its line hide it. A comment that
is opened on a line further up does not: what is captured lies in a comment whenever the match begins in one
(`zoneAt_of_inComment`, `inComment_of_zoneAt`). In a header a comment can begin in the type parameters, too, and then
what follows them lies in it, up to the end of the line if slashes begin it (`HeaderCut.inComment_iff`).
-/

namespace SourceJump.Java

open Regex

/-- A match of a pattern that is tied to the start of a line begins there. -/
theorem startsLine_of_search {read : Text → Option Reading} {hsuffix : ∀ {t r}, read t = some r → r.rest <:+ t}
    {t : Text} {point : Nat} {m : Match} (h : (Pattern.onLineStart read hsuffix).search t point = some m) :
    Pattern.startsLine (t.take m.start).getLast? = true := by
  obtain ⟨r, hr, -⟩ := Pattern.exists_readFrom_of_search h
  exact (Pattern.readFrom_onLineStart.1 hr).1

section Group

variable {c : Cut} {r : Regex} {t : Text} {m : Match} (h : c.IsOf r t m)
include h

theorem zoneAt_match : zoneAt t m.start = scan .code c.before := by
  rw [h.start_eq, h.text_eq]
  exact zoneAt_length _ _

/-- A scan goes on through the front from the zone of the match. -/
theorem zoneAt_within {u v : Text} (hfront : c.front = u ++ v) :
    zoneAt t (m.start + u.length) = scan (zoneAt t m.start) u := by
  rw [zoneAt_match h, h.start_eq, h.text_eq, Cut.text, zoneAt_append, hfront, List.append_assoc, List.take_left]

theorem zoneAt_group : zoneAt t c.start = scan (zoneAt t m.start) c.front := by
  rw [Cut.start, ← h.start_eq, zoneAt_within h (List.append_nil _).symm]

theorem inComment_group_of_isBlock (hne : c.captured ≠ []) (hslash : CodePoint.char '/' ∉ c.captured)
    (hzone : (zoneAt t c.start).isBlock = true) : InComment t c.start c.stop := by
  rw [zoneAt_group h, zoneAt_match h, ← scan_append] at hzone
  have hinside := inComment_of_isBlock (c.back ++ c.rest) hne hslash hzone
  rw [List.append_assoc, List.length_append] at hinside
  rw [h.text_eq]
  exact hinside

theorem inComment_group_of_line (hne : c.captured ≠ []) (hslash : CodePoint.char '/' ∉ c.captured)
    (hline : ∀ d ∈ c.captured, isLineEnd d = false) (hzone : zoneAt t c.start = .line) :
    InComment t c.start c.stop := by
  rw [zoneAt_group h, zoneAt_match h, ← scan_append] at hzone
  have hinside := inComment_of_line (c.back ++ c.rest) hne hslash hline hzone
  rw [List.append_assoc, List.length_append] at hinside
  rw [h.text_eq]
  exact hinside

/-- Behind a front without slashes only a comment from further up can be open. -/
theorem zoneAt_of_inComment (hstart : Pattern.startsLine (t.take m.start).getLast? = true)
    (hfront : CodePoint.char '/' ∉ c.front) (hinside : InComment t c.start c.stop) : zoneAt t m.start = .block := by
  rcases zoneAt_of_startsLine hstart with hcode | hblock
  · have hzone := hinside.isInside_start
    rw [zoneAt_group h, hcode, scan_code hfront] at hzone
    exact absurd hzone (by decide)
  · exact hblock

theorem inComment_of_zoneAt (hne : c.captured ≠ []) (hslash : CodePoint.char '/' ∉ c.captured)
    (hfront : CodePoint.char '/' ∉ c.front) (hblock : zoneAt t m.start = .block) : InComment t c.start c.stop := by
  refine inComment_group_of_isBlock h hne hslash ?_
  rw [zoneAt_group h, hblock]
  exact isBlock_scan rfl hfront

end Group

/-! ### Characters of declarations -/

theorem slash_not_mem_of_isGap {t : Text} (h : IsGap t) : CodePoint.char '/' ∉ t := by
  exact fun hmem => ne_of_isBlank (h _ hmem) (by decide) rfl

theorem IsImportFront.slash_not_mem {t blanks gap : Text} (h : IsImportFront t blanks gap) :
    CodePoint.char '/' ∉ t := by
  have hword : CodePoint.char '/' ∉ importWord := by decide
  rw [h.eq]
  simp [slash_not_mem_of_isGap h.isGap_blanks, slash_not_mem_of_isGap h.isGap, hword]

theorem slash_not_mem_stem (file : Text) : CodePoint.char '/' ∉ (Path.ofText file).stem := by
  have hname : CodePoint.char '/' ∉ (Path.ofText file).name := by
    rw [Path.name]
    cases hlast : (Path.ofText file).parts.getLast? with
    | none => simp
    | some part =>
      have hpart := List.mem_of_mem_filter (List.mem_of_getLast? hlast)
      exact Text.not_mem_of_mem_split hpart
  rw [Path.stem, Path.withoutSuffix]
  split
  · exact hname
  · exact fun hmem => hname (List.mem_of_mem_take hmem)

/-! ### Headers -/

theorem isLineEnd_eq_false_of_isDottedChar {c : CodePoint} (h : isDottedChar c = true) : isLineEnd c = false := by
  have hnewline : c ≠ CodePoint.char '\n' := by
    rintro rfl
    revert h
    decide
  have hreturn : c ≠ CodePoint.char '\r' := by
    rintro rfl
    revert h
    decide
  simp [isLineEnd, hnewline, hreturn]

/-- A clause begins with a blank. -/
theorem exists_cons_of_spells_extends {t : Text} (h : (inRow extendsRegexes).Spells t) :
    ∃ c u, t = c :: u ∧ isBlank c = true := by
  obtain ⟨gap, u, rfl, hgap, -⟩ := h.of_seq
  obtain ⟨hne, hblank⟩ := hgap.of_plus
  obtain ⟨c, gap, rfl⟩ := List.exists_cons_of_ne_nil hne
  exact ⟨c, gap ++ u, rfl, hblank c List.mem_cons_self⟩

theorem slash_not_mem_of_spells_extends {t : Text} (h : (inRow extendsRegexes).Spells t) : CodePoint.char '/' ∉ t := by
  have hgap : ∀ c, isBlank c = true → c ≠ CodePoint.char '/' := fun c hc => ne_of_isBlank hc (by decide)
  have hword : ∀ c ∈ extendsWord, c ≠ CodePoint.char '/' := by decide
  have hwithin : (inRow extendsRegexes).Within (· ≠ CodePoint.char '/') :=
    ⟨⟨hgap, hgap⟩, hword, ⟨hgap, hgap⟩, within_inRow_nil _⟩
  exact fun hmem => h.within hwithin _ hmem rfl

/-- What is scanned through a clause: a comment stays open, except that the end of a line may close it. -/
theorem isInside_scan_extends {z : Zone} {t : Text} (h : (inRow extendsRegexes).Spells t) :
    (scan z t).isInside = true ↔ z.isBlock = true ∨ z = .line ∧ ∀ c ∈ t, isLineEnd c = false := by
  have hall := slash_not_mem_of_spells_extends h
  obtain ⟨c, u, rfl, hc⟩ := exists_cons_of_spells_extends h
  have hslash : c ≠ CodePoint.char '/' := ne_of_isBlank hc (by decide)
  have hstar : c ≠ CodePoint.char '*' := ne_of_isBlank hc (by decide)
  have hu : CodePoint.char '/' ∉ u := fun hmem => hall (List.mem_cons_of_mem _ hmem)
  cases z with
  | code => simp [scan_code hall, Zone.isInside, Zone.isBlock]
  | slash => simp [scan_cons, Zone.next, hslash, hstar, scan_code hu, Zone.isInside, Zone.isBlock]
  | line =>
    rw [scan_line hall]
    by_cases hend : (c :: u).any isLineEnd = true
    · obtain ⟨d, hd, hdend⟩ := List.any_eq_true.1 hend
      rw [if_pos hend]
      refine iff_of_false (by decide) ?_
      rintro (hblock | ⟨-, hnone⟩)
      · exact absurd hblock (by decide)
      · rw [hnone d hd] at hdend
        exact absurd hdend (by decide)
    · rw [if_neg hend]
      exact iff_of_true rfl (Or.inr ⟨rfl, by simpa using hend⟩)
  | block | star => exact iff_of_true (Zone.isInside_iff.2 (Or.inl (isBlock_scan rfl hall))) (Or.inl rfl)

namespace HeaderCut

variable {name t : Text} {m : Match} (h : HeaderCut name t m)
include h

theorem slash_not_mem_naming (hname : CodePoint.char '/' ∉ name) : CodePoint.char '/' ∉ h.naming := by
  have hgap : ∀ c, isBlank c = true → c ≠ CodePoint.char '/' := fun c hc => ne_of_isBlank hc (by decide)
  have hmodifier : ∀ c, isModifierChar c = true → c ≠ CodePoint.char '/' := by
    rintro c hc rfl
    revert hc
    decide
  have hclass : ∀ c ∈ classWord, c ≠ CodePoint.char '/' := by decide
  have hown : ∀ c ∈ name, c ≠ CodePoint.char '/' := fun c hc heq => hname (heq ▸ hc)
  intro hmem
  have hwithin : (inRow (namingRegexes name)).Within (· ≠ CodePoint.char '/') :=
    ⟨trivial, hgap, ⟨⟨hmodifier, hmodifier⟩, ⟨hgap, hgap⟩, within_inRow_nil _⟩, hclass, ⟨hgap, hgap⟩, hown,
      within_inRow_nil _⟩
  exact h.naming_spelled.within hwithin _ hmem rfl

/-- What is captured lies in a comment exactly when one is open behind the type parameters and reaches so far. -/
theorem inComment_iff : InComment t h.cut.start h.cut.stop ↔
    (zoneAt t (m.start + (h.naming ++ h.parameters).length)).isBlock = true ∨
      zoneAt t (m.start + (h.naming ++ h.parameters).length) = .line ∧ ∀ c ∈ h.clause, isLineEnd c = false := by
  have hcaptured := h.isDottedName_captured.isDottedChar
  have hslash := slash_not_mem_of_isDottedChar hcaptured
  have hne := h.isDottedName_captured.ne_nil
  have hbehind : zoneAt t h.cut.start = scan (zoneAt t (m.start + (h.naming ++ h.parameters).length)) h.clause := by
    have hfront : h.cut.front = (h.naming ++ h.parameters) ++ h.clause := by rw [h.front_eq, List.append_assoc]
    rw [zoneAt_group h.isOf, zoneAt_within h.isOf hfront, hfront, scan_append]
  rw [← isInside_scan_extends h.clause_spelled, ← hbehind]
  constructor
  · exact InComment.isInside_start
  · intro hinside
    rcases Zone.isInside_iff.1 hinside with hblock | hline
    · exact inComment_group_of_isBlock h.isOf hne hslash hblock
    · refine inComment_group_of_line h.isOf hne hslash (fun d hd => ?_) hline
      exact isLineEnd_eq_false_of_isDottedChar (hcaptured d hd)

/-- Without slashes in the type parameters only a comment from further up counts. -/
theorem inComment_iff_of_slash_not_mem (hstart : Pattern.startsLine (t.take m.start).getLast? = true)
    (hname : CodePoint.char '/' ∉ name) (hparameters : CodePoint.char '/' ∉ h.parameters) :
    InComment t h.cut.start h.cut.stop ↔ zoneAt t m.start = .block := by
  have hfront : CodePoint.char '/' ∉ h.cut.front := by
    rw [h.front_eq]
    simp [h.slash_not_mem_naming hname, hparameters, slash_not_mem_of_spells_extends h.clause_spelled]
  constructor
  · exact zoneAt_of_inComment h.isOf hstart hfront
  · exact inComment_of_zoneAt h.isOf h.isDottedName_captured.ne_nil
      (slash_not_mem_of_isDottedChar h.isDottedName_captured.isDottedChar) hfront

end HeaderCut

/-! ### The three patterns -/

variable {t : Text} {point : Nat} {m : Match}

/-- The name of a package lies in a comment exactly when the match begins in one that runs over lines. -/
theorem exists_span_of_wildcardImport (hm : wildcardImport.search t point = some m) : ∃ start stop,
    wildcardRegex.groupSpans t m.start = some [(start, stop)] ∧ m.groups = [(t.take stop).drop start] ∧
      (InComment t start stop ↔ zoneAt t m.start = .block) := by
  have hstart := startsLine_of_search hm
  have hend : (inRow [lit ['.', '*'], star (one isBlank), lit [';']]).Silent := by simp [inRow, Silent]
  rw [← pattern_wildcardRegex, wildcardRegex_eq] at hm
  obtain ⟨h⟩ := exists_importCut (by simp [plus, Silent]) hend hm
  obtain ⟨hne, hdotted⟩ := h.captured_spelled.of_plus
  have hfront := h.isImportFront.slash_not_mem
  exact ⟨h.cut.start, h.cut.stop, h.isOf.spans_eq, h.isOf.groups_eq_slice, zoneAt_of_inComment h.isOf hstart hfront,
    inComment_of_zoneAt h.isOf hne (slash_not_mem_of_isDottedChar hdotted) hfront⟩

/-- So does the name that the import of a class gives; only a class with a slash in its name could end the comment. -/
theorem exists_span_of_singleImport {name : Text} (hm : (singleImport name).search t point = some m) : ∃ start stop,
    (singleImportRegex name).groupSpans t m.start = some [(start, stop)] ∧ m.groups = [(t.take stop).drop start] ∧
      (InComment t start stop → zoneAt t m.start = .block) ∧
      (CodePoint.char '/' ∉ name → zoneAt t m.start = .block → InComment t start stop) := by
  have hstart := startsLine_of_search hm
  rw [← pattern_singleImportRegex] at hm
  obtain ⟨h⟩ := exists_importCut_of_singleImport hm
  have hfront := h.isImportFront.slash_not_mem
  refine ⟨h.cut.start, h.cut.stop, h.isOf.spans_eq, h.isOf.groups_eq_slice, zoneAt_of_inComment h.isOf hstart hfront,
    fun hname => ?_⟩
  obtain ⟨package, last, hcaptured, hpackage, hlast⟩ := h.captured_spelled.of_seq
  obtain ⟨-, hdotted⟩ := hpackage.of_plus
  obtain rfl := hlast.of_inRow_singleton.of_lit
  refine inComment_of_zoneAt h.isOf (by simp [hcaptured]) ?_ hfront
  rw [hcaptured]
  simp [slash_not_mem_of_isDottedChar hdotted, hname]

/-- The name of a base class lies in a comment exactly when one is open behind the type parameters and reaches so
far. -/
theorem exists_span_of_classHeader {file : Text} (hm : (classHeader (Path.ofText file).stem).search t point = some m) :
    ∃ start stop naming parameters clause,
      (classHeaderRegex (Path.ofText file).stem).groupSpans t m.start = some [(start, stop)] ∧
      m.groups = [(t.take stop).drop start] ∧ (t.take start).drop m.start = naming ++ (parameters ++ clause) ∧
      (parameters = [] ∨ (inRow parametersRegexes).Spells parameters) ∧ (inRow extendsRegexes).Spells clause ∧
      (InComment t start stop ↔ (zoneAt t (m.start + (naming ++ parameters).length)).isBlock = true ∨
        zoneAt t (m.start + (naming ++ parameters).length) = .line ∧ ∀ c ∈ clause, isLineEnd c = false) ∧
      (CodePoint.char '/' ∉ parameters → (InComment t start stop ↔ zoneAt t m.start = .block)) := by
  have hstart := startsLine_of_search hm
  have hslash := slash_not_mem_stem file
  rw [← pattern_classHeaderRegex] at hm
  obtain ⟨h⟩ := exists_headerCut hm
  exact ⟨h.cut.start, h.cut.stop, h.naming, h.parameters, h.clause, h.isOf.spans_eq, h.isOf.groups_eq_slice,
    h.isOf.slice_front.trans h.front_eq, h.parameters_spelled, h.clause_spelled, h.inComment_iff,
    h.inComment_iff_of_slash_not_mem hstart hslash⟩

end SourceJump.Java
