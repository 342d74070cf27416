import SourceJump.Lookup.Command
import SourceJump.Proofs.Java.ClassImportRegex

/-!
# The import of a class is the first one

The lookup of the import of a class searches for a regular expression that is made from the name. It finds the import
that comes first in the text, and nothing only when there is none (`findImport_finds_first`). So neither a longer
name that begins or ends with the name is taken for it, nor an import that stands behind something else on its line.
-/

namespace SourceJump.Lookup

open Java

/-- The search starts at the start of the buffer, wherever the point is. -/
theorem findImport_fst (b : Buffer) (name : Text) : (findImport b name).1 =
    ((singleImport name).search b.text 0).map (·.groups.headD []) := by
  show (b.rewind.search (singleImport name)).1.map (·.groups.headD []) = _
  rw [Buffer.search_fst]
  rfl

theorem findImport_eq_some_iff {name : Text} (hname : ∀ c ∈ name, isNameChar c = true) {b : Buffer} {full : Text} :
    (findImport b name).1 = some full ↔
      ∃ m, (singleImport name).search b.text 0 = some m ∧ m.groups = [full] := by
  rw [findImport_fst, Option.map_eq_some_iff]
  constructor
  · rintro ⟨m, hm, hfull⟩
    obtain ⟨-, full', hgroups, -⟩ := first_of_search_singleImport hname hm
    refine ⟨m, hm, ?_⟩
    rw [hgroups] at hfull ⊢
    rw [show full' = full from hfull]
  · rintro ⟨m, hm, hgroups⟩
    refine ⟨m, hm, ?_⟩
    rw [hgroups]
    rfl

/-- **The import that is found is the first import of the class.** Searching for `^\s*import\s+([\w$.]+\.name)\s*;`
from the start yields a dotted name exactly when the first place that imports a class of this name imports it under
that dotted name, and yields nothing exactly when no place does. -/
theorem findImport_finds_first (b : Buffer) {name : Text} (hname : ∀ c ∈ name, isNameChar c = true) :
    (findImport b name).1 = (b.rewind.search (singleImportRegex name).pattern).1.map (·.groups.headD []) ∧
    (∀ full, (findImport b name).1 = some full ↔ ∃ p, ImportsClassAt b.text p name full ∧
      ∀ p' full', ImportsClassAt b.text p' name full' → p ≤ p') ∧
    ((findImport b name).1 = none ↔ ∀ p full, ¬ ImportsClassAt b.text p name full) := by
  have hsome : ∀ full, (findImport b name).1 = some full ↔ ∃ p, ImportsClassAt b.text p name full ∧
      ∀ p' full', ImportsClassAt b.text p' name full' → p ≤ p' := fun full =>
    (findImport_eq_some_iff hname).trans (search_singleImport_eq_some_iff hname)
  refine ⟨?_, hsome, ?_⟩
  · rw [pattern_singleImportRegex]
    rfl
  · constructor
    · intro hnone p full himport
      rw [findImport_fst, Option.map_eq_none_iff] at hnone
      exact search_singleImport_ne_none hname himport hnone
    · intro hnever
      cases hfind : (findImport b name).1 with
      | none => rfl
      | some full =>
        obtain ⟨p, himport, -⟩ := (hsome full).1 hfind
        exact absurd himport (hnever p full)

/-- An import behind slashes, those of a longer name and of a nested one, and that of all classes are passed over;
the one after them is the first, although it runs over lines and the point is behind it. -/
theorem findImport_finds_import_over_lines :
    let b : Buffer := ⟨Text.lit "//import x.C;\nimport x.AC;\nimport C.D;\nimport C.*;\n\n import\n a.$b.C\n;", none, 70⟩
    (∀ c ∈ Text.lit "C", isNameChar c = true) ∧ (findImport b (Text.lit "C")).1 = some (Text.lit "a.$b.C") ∧
      ∃ p, ImportsClassAt b.text p (Text.lit "C") (Text.lit "a.$b.C") ∧
        ∀ p' full', ImportsClassAt b.text p' (Text.lit "C") full' → p ≤ p' := by
  intro b
  have hname : ∀ c ∈ Text.lit "C", isNameChar c = true := by decide
  have hfound : (findImport b (Text.lit "C")).1 = some (Text.lit "a.$b.C") := by decide +kernel
  exact ⟨hname, hfound, ((findImport_finds_first b hname).2.1 _).1 hfound⟩

end SourceJump.Lookup
