import SourceJump.Proofs.Java.ImportOnLine
import SourceJump.Proofs.Lookup.BaseClassAtCursor
import SourceJump.Proofs.Lookup.ClassImport

/-!
# The import line and the name under the cursor

The command for import lines takes the dotted name from the line, the command at the cursor takes the last component
from the characters around the offset and looks for the import of the class in the whole text. When no import further
up gives the class another dotted name, both come to the same dotted name. They ask for the same files then, and a
file that is found is opened by both (`probe_candidates_cases`). When none is found, the command for import lines fails,
and the command at the cursor goes on (`importAt_agrees_with_atCursor`).
-/

namespace SourceJump.Lookup

open Java Regex

/-- The files for a dotted name are asked for in the same way whatever the name is that was asked for; it comes up
in the outcome only. -/
theorem probe_candidates_cases (s : Settings) (access : FileAccess) {strategy : Strategy}
    (hne : strategy ≠ .sameDirectory) (full : Text) :
    (∃ events, ∀ name, probe access (s.candidates strategy name full) = (events, none)) ∨
    (∃ events path, ∀ name, probe access (s.candidates strategy name full) =
      (events, some (.opened ⟨path, strategy, name⟩))) := by
  obtain ⟨events, path?, h⟩ := exists_probe_candidates s access full
  cases path? with
  | none => exact Or.inl ⟨events, h strategy hne⟩
  | some path => exact Or.inr ⟨events, path, h strategy hne⟩

/-- The chain behind the import of the class. -/
def laterStages (s : Settings) (b : Buffer) (name : Text) : List Stage :=
  wildcardStages s b name ++ implicitStages s name ++ siblingStages s b name

/-- Where the class is imported, the chain begins with the files for the import. -/
theorem exists_chain_of_findImport (s : Settings) {b : Buffer} {name full : Text}
    (h : (findImport b name).1 = some full) : ∃ point, chain s b name =
      ⟨s.candidates .singleImport name full, [.importMissed full], some point⟩ :: laterStages s b name := by
  cases hfind : findImport b name with
  | mk found b' =>
    rw [hfind] at h
    obtain rfl : found = some full := h
    refine ⟨b'.point, ?_⟩
    simp [chain, importStages, hfind, laterStages]

/-- **The command for import lines and the command at the cursor agree on an import.** The expression for imports reads
the line of the offset `o` and captures a dotted name with the last component `name`; the import of that class which is
found from the start of the text, if its name stands before that of the line, gives the same dotted name. Then at every
offset `o'` from the start to the end of the last component: what the command for import lines opens is opened by the
command at the cursor, after the same calls; and when the one fails, the other makes the same calls first, tells that
the import was missed, and goes on with the rest of the chain. -/
theorem importAt_agrees_with_atCursor (s : Settings) (access : FileAccess) (b : Buffer) {o : Int} {m : Match}
    (hm : importLineRegex.pattern.matchStart (Buffer.lineAt b.text o) = some m) {start stop : Nat}
    (hspan : importLineRegex.groupSpans (Buffer.lineAt b.text o) 0 = some [(start, stop)]) {package name : Text}
    (hgroups : m.groups = [package ++ CodePoint.char '.' :: name]) (hbare : CodePoint.char '.' ∉ name)
    (hearlier : ∀ m' start' stop', (b.rewind.search (singleImportRegex name).pattern).1 = some m' →
      (singleImportRegex name).groupSpans b.text m'.start = some [(start', stop')] →
      start' < Buffer.lineStart b.text o + start → m'.groups = [package ++ CodePoint.char '.' :: name])
    {o' : Nat} (hstart : Buffer.lineStart b.text o + stop ≤ o' + name.length)
    (hstop : o' ≤ Buffer.lineStart b.text o + stop) :
    (∀ found, (run s access b (.importAt o)).outcome = some (.opened found) →
      (run s access b (.atCursor o')).outcome = some (.opened ⟨found.path, .singleImport, name⟩) ∧
      (run s access b (.atCursor o')).events = (run s access b (.importAt o)).events) ∧
    (∀ failure, (run s access b (.importAt o)).outcome = some (.failed failure) → failure.kind = .classNotFound ∧
      let later := (runStages access b.point (laterStages s b name)).orFail (.undeclared name)
      (run s access b (.atCursor o')).events = (run s access b (.importAt o)).events ++
        .importMissed (package ++ CodePoint.char '.' :: name) :: later.events ∧
      (run s access b (.atCursor o')).outcome = later.outcome) := by
  obtain ⟨h, start₁, stop₁, hspan₁, hstart₁, hstop₁⟩ := exists_lineImport hm hgroups hbare
  obtain ⟨rfl, rfl⟩ : start₁ = start ∧ stop₁ = stop := by
    have hsame := hspan₁.symm.trans hspan
    simpa using hsame
  -- The two commands come to the same names.
  have hword : Buffer.wordAt b.text o' = name := by
    apply h.wordAt_eq
    · rw [List.length_append, List.length_cons] at hstop₁
      omega
    · omega
  obtain ⟨m', hm'⟩ := h.exists_search
  have hfound : (b.rewind.search (singleImportRegex name).pattern).1 = some m' := (Buffer.search_fst _ _).trans hm'
  have hsame := h.groups_of_search hm' fun start stop hspan hlt => hearlier m' start stop hfound hspan (by omega)
  have hfind : (findImport b name).1 = some (package ++ CodePoint.char '.' :: name) := by
    rw [findImport_fst, ← pattern_singleImportRegex, hm', Option.map_some, hsame]
    rfl
  rw [matchStart_importLineRegex] at hm
  have himport : run s access b (.importAt o) =
      runDirect s access b.point .singleImport (package ++ CodePoint.char '.' :: name) := by
    simp [run, hm, hgroups]
  obtain ⟨point, hchain⟩ := exists_chain_of_findImport s hfind
  rw [himport, atCursor_eq_runChain s access b hword h.isName.ne_nil, runChain_eq, hchain, runDirect]
  rcases probe_candidates_cases s access (by decide : Strategy.singleImport ≠ .sameDirectory)
    (package ++ CodePoint.char '.' :: name) with ⟨events, hprobe⟩ | ⟨events, path, hprobe⟩
  · obtain ⟨hevents, houtcome⟩ := runStages_agrees access (laterStages s b name) point b.point
    simp [runStages, Settings.directStage, hprobe, Run.orFail, hevents, houtcome, Failure.kind]
  · simp [runStages, Settings.directStage, hprobe, Run.orFail]

/-- An import that stands twice is opened from the second line, which ends in a carriage return, and from its last
component. -/
theorem importAt_agrees_with_atCursor_on_second_line :
    let s : Settings := ⟨[Text.lit "r"], Text.lit "java", none⟩
    let b : Buffer := ⟨Text.lit "import a.C;\n\timport a.C ;\r\nC", some (Text.lit "d/M.java"), 5⟩
    let access : FileAccess := ⟨fun path => path ∈ [Text.lit "r/a/C.java"], some⟩
    importLineRegex.pattern.matchStart (Buffer.lineAt b.text 25) = some ⟨0, 13, [Text.lit "a.C"]⟩ ∧
      importLineRegex.groupSpans (Buffer.lineAt b.text 25) 0 = some [(8, 11)] ∧
      (b.rewind.search (singleImportRegex (Text.lit "C")).pattern).1 = some ⟨0, 11, [Text.lit "a.C"]⟩ ∧
      (run s access b (.importAt 25)).outcome =
        some (.opened ⟨Text.lit "r/a/C.java", .singleImport, Text.lit "a.C"⟩) ∧
      ∀ o' : Nat, 22 ≤ o' → o' ≤ 23 →
        (run s access b (.atCursor o')).outcome =
          some (.opened ⟨Text.lit "r/a/C.java", .singleImport, Text.lit "C"⟩) ∧
        (run s access b (.atCursor o')).events = (run s access b (.importAt 25)).events := by
  intro s b access
  have hm : importLineRegex.pattern.matchStart (Buffer.lineAt b.text 25) = some ⟨0, 13, [Text.lit "a.C"]⟩ := by
    rw [matchStart_importLineRegex]
    decide +kernel
  have hspan : importLineRegex.groupSpans (Buffer.lineAt b.text 25) 0 = some [(8, 11)] := by decide +kernel
  have hfirst : (b.rewind.search (singleImportRegex (Text.lit "C")).pattern).1 = some ⟨0, 11, [Text.lit "a.C"]⟩ := by
    rw [pattern_singleImportRegex]
    decide +kernel
  have hopened : (run s access b (.importAt 25)).outcome =
      some (.opened ⟨Text.lit "r/a/C.java", .singleImport, Text.lit "a.C"⟩) := by decide +kernel
  have hline : Buffer.lineStart b.text 25 = 12 := by decide +kernel
  have hearlier : ∀ m' start' stop', (b.rewind.search (singleImportRegex (Text.lit "C")).pattern).1 = some m' →
      (singleImportRegex (Text.lit "C")).groupSpans b.text m'.start = some [(start', stop')] →
      start' < Buffer.lineStart b.text 25 + 8 →
      m'.groups = [Text.lit "a" ++ CodePoint.char '.' :: Text.lit "C"] := by
    intro m' _ _ hm' _ _
    obtain rfl := Option.some.inj (hfirst.symm.trans hm')
    rfl
  refine ⟨hm, hspan, hfirst, hopened, fun o' hstart hstop => ?_⟩
  have hbelow : Buffer.lineStart b.text 25 + 11 ≤ o' + (Text.lit "C").length := by
    rw [hline]
    exact Nat.add_le_add_right hstart 1
  have habove : o' ≤ Buffer.lineStart b.text 25 + 11 := by
    rw [hline]
    exact hstop
  exact (importAt_agrees_with_atCursor s access b hm hspan rfl (by decide) hearlier hbelow habove).1 _ hopened

end SourceJump.Lookup
