import SourceJump.Proofs.Java.CommentedOut
import SourceJump.Proofs.Lookup.ClassImport
import SourceJump.Proofs.Lookup.PackageLoop

/-!
# Names that come from comments

What a lookup takes from the text it takes from places that a search has found: the import of a class, the imported
packages, the base class. Each of these names can lie in a comment, and it is told exactly when it does
(`names_in_comments_iff`): when a comment that runs over lines is open where the line of the declaration starts,
or when a comment begins between the brackets of the header.
-/

namespace SourceJump.Lookup

open Java Regex

/-- **A name comes from a comment exactly when a comment is open from a line further up, or begins in the type
parameters.** The dotted name of an import and the name of a package lie in a comment exactly when the match begins in
one that runs over lines; a class with a slash in its name could end the comment. The name of a base class lies
in a comment exactly when one is open behind the type parameters and reaches so far; where they hold no slash,
this is so exactly when the match begins in a comment that runs over lines. -/
theorem names_in_comments_iff (b : Buffer) :
    (∀ name full, (findImport b name).1 = some full → ∃ m start stop, (singleImport name).search b.text 0 = some m ∧
      (singleImportRegex name).groupSpans b.text m.start = some [(start, stop)] ∧
      full = (b.text.take stop).drop start ∧
      (InComment b.text start stop → zoneAt b.text m.start = .block) ∧
      (CodePoint.char '/' ∉ name → zoneAt b.text m.start = .block → InComment b.text start stop)) ∧
    (∀ package point, (package, point) ∈ importedPackages b → ∃ point₀ m start stop,
      wildcardImport.search b.text point₀ = some m ∧
      wildcardRegex.groupSpans b.text m.start = some [(start, stop)] ∧ package = (b.text.take stop).drop start ∧
      (InComment b.text start stop ↔ zoneAt b.text m.start = .block)) ∧
    (∀ file m, (b.rewind.search (classHeader (Path.ofText file).stem)).1 = some m →
      ∃ start stop naming parameters clause,
        (classHeaderRegex (Path.ofText file).stem).groupSpans b.text m.start = some [(start, stop)] ∧
        m.groups = [(b.text.take stop).drop start] ∧
        (b.text.take start).drop m.start = naming ++ (parameters ++ clause) ∧
        (parameters = [] ∨ (inRow parametersRegexes).Spells parameters) ∧ (inRow extendsRegexes).Spells clause ∧
        (InComment b.text start stop ↔
          (zoneAt b.text (m.start + (naming ++ parameters).length)).isBlock = true ∨
            zoneAt b.text (m.start + (naming ++ parameters).length) = .line ∧ ∀ c ∈ clause, isLineEnd c = false) ∧
        (CodePoint.char '/' ∉ parameters → (InComment b.text start stop ↔ zoneAt b.text m.start = .block))) := by
  refine ⟨fun name full hfull => ?_, fun package point hpackage => ?_, fun file m hm => ?_⟩
  · rw [findImport_fst] at hfull
    obtain ⟨m, hm, rfl⟩ := Option.map_eq_some_iff.1 hfull
    obtain ⟨start, stop, hspan, hgroups, hinside⟩ := exists_span_of_singleImport hm
    exact ⟨m, start, stop, hm, hspan, by rw [hgroups]; rfl, hinside⟩
  · obtain ⟨⟨m, point'⟩, hi, heq⟩ := List.mem_map.1 hpackage
    obtain ⟨point₀, hm⟩ := Buffer.exists_search_of_mem_searchAgain hi
    obtain ⟨start, stop, hspan, hgroups, hinside⟩ := exists_span_of_wildcardImport hm
    refine ⟨point₀, m, start, stop, hm, hspan, ?_, hinside⟩
    rw [← (Prod.mk.inj heq).1, hgroups]
    rfl
  · rw [Buffer.search_fst] at hm
    exact exists_span_of_classHeader hm

/-- The import stands in a comment that was opened on the line before, behind one that was closed there. -/
theorem names_in_comments_iff_of_open_comment :
    let b := Buffer.ofText (Text.lit "/* import x.C;*/ /*\nimport a.C;") none
    (findImport b (Text.lit "C")).1 = some (Text.lit "a.C") ∧ ∃ start stop,
      Text.lit "a.C" = (b.text.take stop).drop start ∧ InComment b.text start stop := by
  intro b
  have hfound : (findImport b (Text.lit "C")).1 = some (Text.lit "a.C") := by decide +kernel
  have hsearch : (singleImport (Text.lit "C")).search b.text 0 = some ⟨20, 31, [Text.lit "a.C"]⟩ := by decide +kernel
  obtain ⟨m, start, stop, hm, -, hslice, -, hinside⟩ := (names_in_comments_iff b).1 _ _ hfound
  obtain rfl := Option.some.inj (hsearch.symm.trans hm)
  exact ⟨hfound, start, stop, hslice, hinside (by decide) (by decide +kernel)⟩

/-- Two imports and a header in a comment over lines are taken for declarations, and the base class is opened. -/
theorem names_come_from_comment_over_lines :
    let b := Buffer.ofText (Text.lit "/*\nimport q.*;\nimport a.C;\nclass N extends Old\n*/") (some (Text.lit "N.java"))
    let access : FileAccess := ⟨fun path => path ∈ [Text.lit "Old.java"], some⟩
    ((findImport b (Text.lit "C")).1 = some (Text.lit "a.C") ∧ InComment b.text 22 25) ∧
    (importedPackages b = [(Text.lit "q", 14)] ∧ InComment b.text 10 11) ∧
    ((run ⟨[], Text.lit "java", none⟩ access b .baseClass).outcome =
        some (.opened ⟨Text.lit "Old.java", .sameDirectory, Text.lit "Old"⟩) ∧ InComment b.text 43 46) := by
  decide +kernel

end SourceJump.Lookup
