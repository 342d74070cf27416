import SourceJump.Proofs.Java.ImportRegex
import SourceJump.Proofs.Lookup.Chain

/-!
# Every imported package is tried once

The loop over the imports of packages searches from the start of the buffer until nothing is found. Its
finds are the imports that can be seen without any search, in the order of the text, and it ends. When no package
holds the class, the lookup is one attempt for each import, in this order, and nothing else
(`inWildcards_tries_each_import`).
-/

namespace SourceJump.Lookup

/-- A lookup of a dotted name that opens nothing has met no readable file. -/
theorem unreadable_of_resolve_not_opened {s : Settings} {access : FileAccess} {b : Buffer} {name : Text}
    (h : ∀ found, (run s access b (.resolve name)).outcome ≠ some (.opened found)) (strategy : Strategy)
    (className : Text) : ∀ c ∈ s.candidates strategy className name, access.readable c.path = false := by
  have hfollows := runDirect_follows s access b.point .searchPath name
  rcases first_readable_cases access (s.candidates .searchPath name name) with hm | ⟨misses, c, rest, hsplit, hm, hc⟩
  · intro c hc
    obtain ⟨root, hroot, rfl⟩ := List.mem_map.1 hc
    exact hm ⟨_, .searchPath, name, name⟩ (List.mem_map.2 ⟨root, hroot, rfl⟩)
  · have hmem : c ∈ s.candidates .searchPath name name := by simp [hsplit]
    obtain ⟨root, -, rfl⟩ := List.mem_map.1 hmem
    rw [hsplit] at hfollows
    exact absurd (hfollows.of_first hm hc).2 (h _)

theorem events_resolve_of_not_opened {s : Settings} {access : FileAccess} {b : Buffer} {name : Text}
    (h : ∀ found, (run s access b (.resolve name)).outcome ≠ some (.opened found)) (strategy : Strategy)
    (className : Text) : (run s access b (.resolve name)).events =
      (s.candidates strategy className name).map (.probed ·.path) := by
  have hm : ∀ stage ∈ [s.directStage .searchPath name], ∀ c ∈ stage.candidates, access.readable c.path = false := by
    intro stage hstage
    obtain rfl := List.mem_singleton.1 hstage
    exact unreadable_of_resolve_not_opened h .searchPath name
  have hevents := (runStages_of_missed hm b.point).1
  refine hevents.trans ?_
  simp [Settings.directStage, Settings.candidates]

theorem events_inWildcards_of_missed {s : Settings} {access : FileAccess} {b : Buffer} {name : Text}
    (h : ∀ c ∈ (Java.packageImports b.text).flatMap fun i =>
      s.candidates .wildcardImport name (Java.memberName i.2 name), access.readable c.path = false) :
    (run s access b (.inWildcards name)).events = ((Java.packageImports b.text).flatMap fun i =>
      s.candidates .wildcardImport name (Java.memberName i.2 name)).map (.probed ·.path) := by
  rw [← wildcardStages_candidates] at h ⊢
  have hm : ∀ stage ∈ wildcardStages s b name, ∀ c ∈ stage.candidates, access.readable c.path = false :=
    fun stage hstage c hc => h c (List.mem_flatMap.2 ⟨stage, hstage, hc⟩)
  rw [run_inWildcards_eq s access b name b.point]
  refine (runStages_of_missed hm b.point).1.trans ?_
  rw [List.map_flatMap]
  refine List.flatMap_congr fun stage hstage => ?_
  rw [whenMissed_of_mem_wildcardStages hstage, List.append_nil]

/-- **The loop visits every import of a package exactly once, in the order of the text, and ends.** Searching again
and again for `^\s*import\s+([\w$.]+)\.\*\s*;` finds the packages of the imports at increasing places and then
nothing. When the class is in none of these packages, the lookup is one attempt after the other, one for each
import. -/
theorem inWildcards_tries_each_import (s : Settings) (access : FileAccess) (b : Buffer) (name : Text) :
    ∃ imports : List (Nat × Text), imports.Pairwise (·.1 < ·.1) ∧
      (∀ p q, (p, q) ∈ imports ↔ Java.ImportsPackageAt b.text p q) ∧
      (∃ found, Buffer.Finds Java.wildcardRegex.pattern b.rewind found) ∧
      (∀ found, Buffer.Finds Java.wildcardRegex.pattern b.rewind found →
        found.map (·.1.groups) = imports.map fun i => [i.2]) ∧
      ((∀ i ∈ imports, ∀ found, (run s access b (.resolve (Java.memberName i.2 name))).outcome ≠ some (.opened found)) →
        (run s access b (.inWildcards name)).events =
          imports.flatMap (fun i => (run s access b (.resolve (Java.memberName i.2 name))).events) ∧
        (run s access b (.inWildcards name)).outcome = none) := by
  obtain ⟨all, hall, hgroups, -⟩ := Java.finds_wildcardImport b
  rw [← Java.pattern_wildcardRegex] at hall
  refine ⟨Java.packageImports b.text, Java.pairwise_packageImportsFrom 0 true b.text,
    fun p q => Java.mem_packageImports, ⟨all, hall⟩, fun found hfound => ?_, fun h => ?_⟩
  · rw [hfound.unique hall, hgroups]
  · have hm : ∀ c ∈ (Java.packageImports b.text).flatMap fun i =>
        s.candidates .wildcardImport name (Java.memberName i.2 name), access.readable c.path = false := by
      intro c hc
      obtain ⟨i, hi, hc⟩ := List.mem_flatMap.1 hc
      exact unreadable_of_resolve_not_opened (h i hi) .wildcardImport name c hc
    refine ⟨?_, ((run_inWildcards_follows s access b name).of_missed hm).2⟩
    rw [events_inWildcards_of_missed hm, List.map_flatMap]
    exact List.flatMap_congr fun i hi => (events_resolve_of_not_opened (h i hi) .wildcardImport name).symm

/-- An import that runs over several lines, behind an empty line, and one after it are both tried. -/
theorem inWildcards_tries_import_over_lines :
    let s : Settings := ⟨[Text.lit "r"], Text.lit "java", none⟩
    let b := Buffer.ofText (Text.lit "\n import\n a.b.* ;\nimport c.*;") none
    let access : FileAccess := ⟨fun _ => false, some⟩
    ∃ imports : List (Nat × Text), (2, Text.lit "a.b") ∈ imports ∧ (18, Text.lit "c") ∈ imports ∧
      (run s access b (.inWildcards (Text.lit "C"))).events =
        imports.flatMap (fun i => (run s access b (.resolve (Java.memberName i.2 (Text.lit "C")))).events) ∧
      (run s access b (.inWildcards (Text.lit "C"))).outcome = none := by
  intro s b access
  obtain ⟨imports, -, hmem, -, -, hmissed⟩ := inWildcards_tries_each_import s access b (Text.lit "C")
  refine ⟨imports, (hmem _ _).2 (Java.mem_packageImports.1 (by decide)),
    (hmem _ _).2 (Java.mem_packageImports.1 (by decide)), hmissed fun i _ found h => ?_⟩
  cases h

end SourceJump.Lookup
