import SourceJump.Proofs.Java.CommentedOut
import SourceJump.Proofs.Java.SourcePath
import SourceJump.Proofs.Lookup.Chain
import SourceJump.Proofs.Lookup.ClassImport

/-!
# The names that a buffer gives

Most commands take the name that they look for from the buffer. The word at the cursor is a name, and what stands on
the line of an import or in the header of a class is a dotted name (`Command.LooksFor.isDottedName`). The dotted names
that imports and packages make of them are made of dotted characters, but dots may follow each other there. All of them
can be the name of a class (`NamesFile`).
-/

namespace SourceJump.Lookup

open Java

variable {b : Buffer} {name : Text}

theorem namesFile_of_isDottedName {t : Text} (h : IsDottedName t) : NamesFile t := by
  refine ⟨slash_not_mem_of_isDottedChar h.isDottedChar, ?_⟩
  cases h with
  | single hname =>
    obtain ⟨c, rest, rfl⟩ := List.exists_cons_of_ne_nil hname.ne_nil
    exact ⟨c, List.mem_cons_self, hname.chars c List.mem_cons_self⟩
  | qualified hname _ =>
    obtain ⟨c, rest, rfl⟩ := List.exists_cons_of_ne_nil hname.ne_nil
    exact ⟨c, by simp, hname.chars c List.mem_cons_self⟩

/-- The class of a package whose name holds no slash, be it empty or all dots. -/
theorem namesFile_memberName {package : Text} (hname : IsName name) (hpackage : CodePoint.char '/' ∉ package) :
    NamesFile (memberName package name) := by
  obtain ⟨hslash, c, hc, hchar⟩ := namesFile_of_isDottedName (.single hname)
  exact ⟨Text.not_mem_append_cons hpackage (by decide) hslash, c,
    List.mem_append_right _ (List.mem_cons_of_mem _ hc), hchar⟩

theorem namesFile_findImport (hname : IsName name) {full : Text} (h : (findImport b name).1 = some full) :
    NamesFile full := by
  rw [findImport_fst] at h
  obtain ⟨m, hm, hfull⟩ := Option.map_eq_some_iff.1 h
  obtain ⟨_, full', hgroups, ⟨-, _, _, body, _, package, -, -, -, hrun, hcut, -⟩, -⟩ :=
    first_of_search_singleImport hname.chars hm
  obtain rfl : full' = full := by simpa [hgroups] using hfull
  have hdotted : CodePoint.char '/' ∉ full' :=
    slash_not_mem_of_isDottedChar fun c hc => List.mem_takeWhile_imp (hrun ▸ hc)
  rw [hcut] at hdotted ⊢
  exact namesFile_memberName hname fun hc => hdotted (List.mem_append_left _ hc)

theorem slash_not_mem_of_packageImports {t package : Text} {p : Nat} (h : (p, package) ∈ packageImports t) :
    CodePoint.char '/' ∉ package := by
  obtain ⟨-, _, _, body, _, -, -, -, hrun, -⟩ := mem_packageImports.1 h
  have hdotted : CodePoint.char '/' ∉ package ++ [CodePoint.char '.'] :=
    slash_not_mem_of_isDottedChar fun c hc => List.mem_takeWhile_imp (hrun ▸ hc)
  exact fun hc => hdotted (List.mem_append_left _ hc)

/-- The name on an import line. -/
theorem isDottedName_of_importLine {line : Text} {m : Match} (h : importLine.matchStart line = some m) :
    ∃ full, m.groups = [full] ∧ IsDottedName full := by
  obtain ⟨r, hr, rfl⟩ := Option.map_eq_some_iff.1 h
  have hread : readImportLine line = some r := hr
  obtain ⟨body, -, hread⟩ := Option.bind_eq_some_iff.1 hread
  obtain ⟨rest, -, hread⟩ := Option.bind_eq_some_iff.1 hread
  split at hread
  · next hqualified =>
    obtain rfl := Option.some.inj hread
    exact ⟨_, rfl, ((isQualified_iff fun c hc => List.mem_takeWhile_imp hc).1 hqualified).isDottedName⟩
  · cases hread

/-- The name of the base class in a header. -/
theorem isDottedName_of_classHeader {own : Text} {t : Text} {m : Match} (h : (classHeader own).search t 0 = some m) :
    ∃ base, m.groups = [base] ∧ IsDottedName base := by
  rw [← pattern_classHeaderRegex] at h
  obtain ⟨hcut⟩ := exists_headerCut h
  exact ⟨_, hcut.isOf.groups_eq, hcut.isDottedName_captured⟩

/-- The command takes the name that it looks for from the buffer. -/
def Command.readsName : Command → Bool
  | .atCursor _ | .importAt _ | .baseClass => true
  | .resolve _ | .inWildcards _ => false

theorem Command.LooksFor.isDottedName {c : Command} (h : c.LooksFor b name) (hc : c.readsName = true) :
    IsDottedName name := by
  cases h with
  | resolve name => cases hc
  | atCursor _ hname => exact .single hname
  | importAt hm =>
    obtain ⟨full, hgroups, hname⟩ := isDottedName_of_importLine hm
    rwa [hgroups]
  | baseClass _ hm =>
    obtain ⟨base, hgroups, hname⟩ := isDottedName_of_classHeader hm
    rwa [hgroups]

end SourceJump.Lookup
