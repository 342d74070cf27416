import SourceJump.Proofs.Buffer.Lines
import SourceJump.Proofs.Java.ImportLineRegex
import SourceJump.Proofs.Lookup.Wildcards

/-!
# The import on the line of the cursor

A line is the import of a class when it begins with blanks, the word `import`, blanks, a qualified name, blanks and a
semicolon (`BeginsWithImport`). Whatever line the cursor is on, the command for import lines does with the name what the
lookup of that name does, and says that an import led to the file; on any other line it fails before it asks for a file
(`importAt_parses_imports`). Where in the line the cursor stands does not matter.
-/

namespace SourceJump

namespace Java

/-- The text begins with the import of the class with this name, which has two components or more. -/
def BeginsWithImport (t name : Text) : Prop :=
  ∃ blanks gap gap' rest : Text, t = blanks ++ (importWord ++ (gap ++ (name ++ (gap' ++ CodePoint.char ';' :: rest)))) ∧
    IsGap blanks ∧ gap ≠ [] ∧ IsGap gap ∧ IsGap gap' ∧ IsQualifiedName name

/-- The text begins with blanks, the word `import` and blanks, and what stands behind them is a longest run of dotted
characters, possibly empty, and something else. -/
def ImportsRow (t row rest : Text) : Prop :=
  ∃ blanks gap : Text, t = blanks ++ (importWord ++ (gap ++ (row ++ rest))) ∧ IsGap blanks ∧ gap ≠ [] ∧ IsGap gap ∧
    (∀ c ∈ (row ++ rest).head?, isBlank c = false) ∧ (∀ c ∈ row, isDottedChar c = true) ∧
    ∀ c ∈ rest.head?, isDottedChar c = false

/-- The reader of the line reads the row, if the row is a qualified name and the declaration ends behind it. -/
theorem ImportsRow.readImportLine_eq {t row rest : Text} (h : ImportsRow t row rest) : readImportLine t =
    (afterSemicolon? rest).bind fun rest' => if isQualified row then some ⟨[row], rest'⟩ else none := by
  obtain ⟨blanks, gap, rfl, hblanks, hne, hgap, hbody, hrow, hrest⟩ := h
  rw [readImportLine_eq_bind, afterImport?_eq_some hblanks hne hgap hbody, Option.bind_some, readQualified,
    Text.takeWhile_append_of_stop hrow hrest, Text.dropWhile_append_of_stop hrow hrest]
  rfl

theorem BeginsWithImport.exists_importsRow {t name : Text} (h : BeginsWithImport t name) :
    ∃ gap rest : Text, ImportsRow t name (gap ++ CodePoint.char ';' :: rest) ∧ IsGap gap ∧ isQualified name = true := by
  obtain ⟨blanks, gap, gap', rest, ht, hblanks, hne, hgap, hgap', hname⟩ := h
  have hdotted := hname.isDottedName.isDottedChar
  have hend : afterSemicolon? (gap' ++ CodePoint.char ';' :: rest) = some rest :=
    afterSemicolon?_eq_some_iff.2 ⟨gap', rfl, hgap'⟩
  refine ⟨gap', rest, ⟨blanks, gap, ht, hblanks, hne, hgap, ?_, hdotted, not_isDottedChar_of_afterSemicolon? hend⟩,
    hgap', (isQualified_iff hdotted).2 hname⟩
  obtain ⟨c, tail, rfl⟩ := List.exists_cons_of_ne_nil hname.isDottedName.ne_nil
  intro d hd
  obtain rfl : c = d := by simpa using hd
  exact not_isBlank_of_isDottedChar (hdotted c List.mem_cons_self)

/-- The reader of the line reads exactly the imports of a class. -/
theorem exists_readImportLine_iff {t name : Text} :
    (∃ rest, readImportLine t = some ⟨[name], rest⟩) ↔ BeginsWithImport t name := by
  constructor
  · rintro ⟨rest, h⟩
    obtain ⟨body, hbody, h⟩ := Option.bind_eq_some_iff.1 h
    obtain ⟨blanks, gap, ht, hblanks, hne, hgap⟩ := exists_of_afterImport? hbody
    obtain ⟨rest', hrest, h⟩ := Option.bind_eq_some_iff.1 h
    split at h
    · next hname =>
      obtain ⟨rfl, rfl⟩ : body.takeWhile isDottedChar = name ∧ rest' = rest := by simpa using h
      obtain ⟨gap', hback, hgap'⟩ := afterSemicolon?_eq_some_iff.1 hrest
      refine ⟨blanks, gap, gap', rest', ?_, hblanks, hne, hgap, hgap',
        (isQualified_iff fun c hc => List.mem_takeWhile_imp hc).1 hname⟩
      rw [← hback, List.takeWhile_append_dropWhile, ht]
    · cases h
  · intro h
    obtain ⟨gap, rest, hrow, hgap, hname⟩ := h.exists_importsRow
    refine ⟨rest, ?_⟩
    rw [hrow.readImportLine_eq, afterSemicolon?_eq_some_iff.2 ⟨gap, rfl, hgap⟩, Option.bind_some, if_pos hname]

theorem readImportLine_groups {t : Text} {r : Reading} (h : readImportLine t = some r) : ∃ name, r.groups = [name] := by
  obtain ⟨body, -, h⟩ := Option.bind_eq_some_iff.1 h
  obtain ⟨rest, -, h⟩ := Option.bind_eq_some_iff.1 h
  split at h
  · exact ⟨_, (congrArg Reading.groups (Option.some.inj h)).symm⟩
  · cases h

theorem readImportLine_eq_none_iff {t : Text} : readImportLine t = none ↔ ∀ name, ¬ BeginsWithImport t name := by
  constructor
  · intro hnone name h
    obtain ⟨rest, hread⟩ := exists_readImportLine_iff.2 h
    rw [hnone] at hread
    cases hread
  · intro h
    by_contra hsome
    obtain ⟨⟨groups, rest⟩, hr⟩ := Option.ne_none_iff_exists'.1 hsome
    obtain ⟨name, rfl : groups = [name]⟩ := readImportLine_groups hr
    exact h name (exists_readImportLine_iff.1 ⟨rest, hr⟩)

/-- A row without a dot, one with an empty component and one that is not followed by a semicolon is no import of a
class. So a wildcard or the word `static` behind `import` is none. -/
theorem ImportsRow.not_beginsWithImport {t row rest name : Text} (h : ImportsRow t row rest)
    (hbad : CodePoint.char '.' ∉ row ∨ [] ∈ Text.split '.' row ∨
      (rest.dropWhile isBlank).head? ≠ some (CodePoint.char ';')) : ¬ BeginsWithImport t name := by
  intro himport
  obtain ⟨rest', hread⟩ := exists_readImportLine_iff.2 himport
  rw [h.readImportLine_eq] at hread
  obtain ⟨rest'', hend, hread⟩ := Option.bind_eq_some_iff.1 hread
  split at hread
  · next hname =>
    rw [isQualified, Bool.and_eq_true, decide_eq_true_eq, List.all_eq_true] at hname
    rcases hbad with hdot | hempty | hsemicolon
    · rw [Text.split_of_not_mem hdot] at hname
      exact absurd hname.1 (by simp)
    · exact absurd (hname.2 _ hempty) (by simp)
    · obtain ⟨gap, rfl, hgap⟩ := afterSemicolon?_eq_some_iff.1 hend
      apply hsemicolon
      rw [Text.dropWhile_append_of_stop hgap (by simp; decide)]
      rfl
  · cases hread

end Java

namespace Lookup

open Java

/-- The same outcome, reached by another strategy. -/
def Outcome.withStrategy (strategy : Strategy) : Outcome → Outcome
  | .opened found => .opened { found with strategy := strategy }
  | .failed failure => .failed failure
  | .homeUnknown => .homeUnknown

/-- A dotted name is looked up in the same way by every strategy. -/
theorem runDirect_withStrategy (s : Settings) (access : FileAccess) (point : Nat) {strategy strategy' : Strategy}
    (h : strategy ≠ .sameDirectory) (h' : strategy' ≠ .sameDirectory) (name : Text) :
    runDirect s access point strategy' name = { runDirect s access point strategy name with
      outcome := (runDirect s access point strategy name).outcome.map (Outcome.withStrategy strategy') } := by
  obtain ⟨events, path?, hprobe⟩ := exists_probe_candidates s access name
  have hstrategy := hprobe strategy h name
  have hstrategy' := hprobe strategy' h' name
  cases path? <;>
    simp [runDirect, runStages, Settings.directStage, hstrategy, hstrategy', Run.orFail, Outcome.withStrategy]

/-- A lookup of a dotted name finds a file for that name, or no class. -/
theorem runDirect_outcome_cases (s : Settings) (access : FileAccess) (point : Nat) {strategy : Strategy}
    (h : strategy ≠ .sameDirectory) (name : Text) :
    (runDirect s access point strategy name).outcome = some (.failed (.notOnSearchPath name)) ∨
    ∃ path, (runDirect s access point strategy name).outcome = some (.opened ⟨path, strategy, name⟩) := by
  obtain ⟨events, path?, hprobe⟩ := exists_probe_candidates s access name
  have hstrategy := hprobe strategy h name
  cases path? with
  | none => exact Or.inl (by simp [runDirect, runStages, Settings.directStage, hstrategy, Run.orFail])
  | some path => exact Or.inr ⟨path, by simp [runDirect, runStages, Settings.directStage, hstrategy, Run.orFail]⟩

variable {s : Settings} {access : FileAccess} {b : Buffer} {offset : Int} {name : Text}

theorem run_importAt_of_not_import (h : ∀ name, ¬ BeginsWithImport (Buffer.lineAt b.text offset) name) :
    run s access b (.importAt offset) = .failed (.notAnImport (Buffer.lineAt b.text offset).strip) b.point := by
  have hmatch : importLine.matchStart (Buffer.lineAt b.text offset) = none :=
    Option.map_eq_none_iff.2 (readImportLine_eq_none_iff.2 h)
  simp [run, hmatch]

theorem run_importAt_of_beginsWithImport (h : BeginsWithImport (Buffer.lineAt b.text offset) name) :
    run s access b (.importAt offset) = runDirect s access b.point .singleImport name := by
  obtain ⟨rest, hread⟩ := exists_readImportLine_iff.2 h
  obtain ⟨m, hmatch, hgroups⟩ : ∃ m, importLine.matchStart (Buffer.lineAt b.text offset) = some m ∧ m.groups = [name] :=
    ⟨_, Option.map_eq_some_iff.2 ⟨_, hread, rfl⟩, rfl⟩
  simp [run, hmatch, hgroups]

/-- **The command for import lines parses exactly the imports of one class.** The line that holds the offset, without
the carriage returns at its end, decides what the command does; every offset in that line gives the same run. The
command fails with a line that cannot be parsed, and before it asks for a file, exactly when the line does not begin
with the import of a class. With an import it does what the lookup of the name does, only that what is opened was found
by an import. No line is resolved whose row of dotted characters behind `import` has no dot, has an empty component, or
is followed by something other than a semicolon. -/
theorem importAt_parses_imports (s : Settings) (access : FileAccess) (b : Buffer) (offset : Int) :
    ∃ i k line, Text.IsAt b.text i k (Buffer.clamp b.text offset) ∧ b.text.lines[i]? = some line ∧
      let content := line.trimEnd (· = '\r')
      let done := run s access b (.importAt offset)
      (∀ offset' k', Text.IsAt b.text i k' (Buffer.clamp b.text offset') →
        run s access b (.importAt offset') = done) ∧
      ((∃ failure, done.outcome = some (.failed failure) ∧ failure.kind = .importNotParsable) ↔
        ∀ name, ¬ BeginsWithImport content name) ∧
      ((∀ name, ¬ BeginsWithImport content name) → done = .failed (.notAnImport content.strip) b.point) ∧
      (∀ name, BeginsWithImport content name →
        done = { run s access b (.resolve name) with
          outcome := (run s access b (.resolve name)).outcome.map (Outcome.withStrategy .singleImport) } ∧
        ∀ found, done.outcome = some (.opened found) → found.strategy = .singleImport ∧ found.className = name) ∧
      ∀ row rest, ImportsRow content row rest →
        (CodePoint.char '.' ∉ row ∨ [] ∈ Text.split '.' row ∨
          (rest.dropWhile isBlank).head? ≠ some (CodePoint.char ';')) →
        done = .failed (.notAnImport content.strip) b.point := by
  obtain ⟨i, k, hat⟩ := Text.exists_isAt (Nat.min_le_right offset.toNat b.text.length)
  obtain ⟨line, hline, -, -⟩ := id hat
  have hcontent : ∀ offset' k', Text.IsAt b.text i k' (Buffer.clamp b.text offset') →
      Buffer.lineAt b.text offset' = line.trimEnd (· = '\r') :=
    fun _ _ hat' => Buffer.lineAt_of_isAt hat' hline
  have hsame := hcontent offset k hat
  have hfails := @run_importAt_of_not_import s access b offset
  have hresolves := @run_importAt_of_beginsWithImport s access b offset
  rw [hsame] at hfails hresolves
  have hends : ∀ name, BeginsWithImport (line.trimEnd (· = '\r')) name →
      (run s access b (.importAt offset)).outcome = some (.failed (.notOnSearchPath name)) ∨
      ∃ path, (run s access b (.importAt offset)).outcome = some (.opened ⟨path, .singleImport, name⟩) := by
    intro name himport
    rw [hresolves himport]
    exact runDirect_outcome_cases s access b.point (by decide) name
  refine ⟨i, k, line, hat, hline, ?_, ?_, hfails, ?_, ?_⟩
  · intro offset' k' hat'
    simp only [run, hsame, hcontent offset' k' hat']
  · constructor
    · rintro ⟨failure, houtcome, hkind⟩ name himport
      rcases hends name himport with hfailed | ⟨path, hopened⟩
      · rw [hfailed] at houtcome
        cases houtcome
        cases hkind
      · rw [hopened] at houtcome
        cases houtcome
    · intro himport
      exact ⟨_, congrArg Run.outcome (hfails himport), rfl⟩
  · intro name himport
    refine ⟨(hresolves himport).trans (runDirect_withStrategy s access b.point (by decide) (by decide) name), ?_⟩
    intro found hfound
    rcases hends name himport with hfailed | ⟨path, hopened⟩
    · rw [hfailed] at hfound
      cases hfound
    · rw [hopened] at hfound
      cases hfound
      exact ⟨rfl, rfl⟩
  · intro row rest hrow hbad
    exact hfails fun name => hrow.not_beginsWithImport hbad

/-- At the end of its line, before the carriage return, an import is resolved; at the end of the line before it a
wildcard is not. -/
theorem importAt_parses_imports_at_line_ends :
    let s : Settings := ⟨[Text.lit "r"], Text.lit "java", none⟩
    let b : Buffer := ⟨Text.lit "import a.*;\n\timport a.C ;\r\nC", none, 5⟩
    let access : FileAccess := ⟨fun path => path ∈ [Text.lit "r/a/C.java"], some⟩
    BeginsWithImport (Text.lit "\timport a.C ;") (Text.lit "a.C") ∧
      ImportsRow (Text.lit "import a.*;") (Text.lit "a.") (Text.lit "*;") ∧
      (run s access b (.importAt 25)).outcome =
        some (.opened ⟨Text.lit "r/a/C.java", .singleImport, Text.lit "a.C"⟩) ∧
      run s access b (.importAt 11) = .failed (.notAnImport (Text.lit "import a.*;")) 5 := by
  intro s b access
  have himport : BeginsWithImport (Text.lit "\timport a.C ;") (Text.lit "a.C") := by
    refine ⟨Text.lit "\t", Text.lit " ", Text.lit " ", [], by decide, by decide, by decide, by decide, by decide, ?_⟩
    exact ⟨Text.lit "a", Text.lit "C", rfl, ⟨by decide, by decide⟩, .single ⟨by decide, by decide⟩⟩
  have hrow : ImportsRow (Text.lit "import a.*;") (Text.lit "a.") (Text.lit "*;") :=
    ⟨[], Text.lit " ", by decide, by decide, by decide, by decide, by decide, by decide, by decide⟩
  refine ⟨himport, hrow, ?_, ?_⟩
  · obtain ⟨i, k, line, hat, hline, -, -, -, hresolves, -⟩ := importAt_parses_imports s access b 25
    obtain rfl : 1 = i := (Text.isAt_iff.1 hat).2.1
    obtain rfl : Text.lit "\timport a.C ;\r" = line := Option.some.inj hline
    rw [(hresolves _ himport).1]
    decide +kernel
  · obtain ⟨i, k, line, hat, hline, -, -, -, -, hfails⟩ := importAt_parses_imports s access b 11
    obtain rfl : 0 = i := (Text.isAt_iff.1 hat).2.1
    obtain rfl : Text.lit "import a.*;" = line := Option.some.inj hline
    exact hfails _ _ hrow (Or.inr (Or.inr (by decide)))

end Lookup

end SourceJump
