import SourceJump.Lookup.Command
import SourceJump.Proofs.Java.PackageSearch

/-!
# The loop over the imported packages

The lookup in the imported packages searches for an import, tries its package, and searches on from behind the import.
The packages that this loop comes by are known without it (`importedPackages_eq`), and what it does is to try one stage
for each of them, first to last (`tryWildcards_rewind`). The proof goes along the finds of the search, which an attempt
in between does not disturb: it leaves the point and the text alone. So the whole chain for an unqualified name is a
row of stages, known before any file is asked for (`runChain_eq`).
-/

namespace SourceJump.Lookup

/-- The packages that the buffer imports, in the order of the text, each with the point after it. -/
def importedPackages (b : Buffer) : List (Text × Nat) :=
  (b.searchAll Java.wildcardImport).map fun (m, point) => (m.groups.headD [], point)

/-- The packages that a buffer imports, as the loop sees them, are those of one pass over its text. -/
theorem importedPackages_eq (b : Buffer) :
    (importedPackages b).map Prod.fst = (Java.packageImports b.text).map Prod.snd := by
  obtain ⟨found, hfound, hgroups, hlength⟩ := Java.finds_wildcardImport b
  have hall : b.searchAll Java.wildcardImport = found := Buffer.searchAgain_eq_of_finds hfound hlength
  have hheads := congrArg (List.map fun groups : List Text => groups.headD []) hgroups
  simp only [List.map_map] at hheads
  rw [importedPackages, hall, List.map_map]
  exact hheads

/-- The stage of an imported package, which the search for the import leaves at the point. -/
def packageStage (s : Settings) (name package : Text) (point : Nat) : Stage :=
  ⟨s.candidates .wildcardImport name (Java.memberName package name), [], some point⟩

/-- The stages of the imported packages; the search for them starts over at the start. -/
def wildcardStages (s : Settings) (b : Buffer) (name : Text) : List Stage :=
  ⟨[], [], some 0⟩ :: (importedPackages b).map fun (package, point) => packageStage s name package point

/-- The chain for an unqualified name. -/
def chain (s : Settings) (b : Buffer) (name : Text) : List Stage :=
  importStages s b name ++ wildcardStages s b name ++ implicitStages s name ++
    siblingStages s b name

variable (s : Settings) (access : FileAccess) (name : Text)

/-! ### Stages one after the other -/

theorem Run.orElse_assoc (run : Run) (next later : Nat → Run) :
    (run.orElse next).orElse later = run.orElse fun point => (next point).orElse later := by
  obtain ⟨events, outcome, point⟩ := run
  cases outcome with
  | some outcome => rfl
  | none =>
    cases hnext : next point with
    | mk events' outcome' point' => cases outcome' <;> simp [Run.orElse, hnext]

/-- A stage that tells nothing when it is missed does what its candidates do. -/
theorem runStages_singleton {stage : Stage} (h : stage.whenMissed = []) (point : Nat) : runStages access point [stage] =
    ⟨(probe access stage.candidates).1, (probe access stage.candidates).2, stage.point.getD point⟩ := by
  rw [runStages]
  cases probe access stage.candidates with
  | mk events outcome => cases outcome <;> simp [runStages, h]

theorem runStages_cons (stage : Stage) (rest : List Stage) (point : Nat) : runStages access point (stage :: rest) =
    (runStages access point [stage]).orElse fun point => runStages access point rest := by
  rw [runStages, runStages]
  cases probe access stage.candidates with
  | mk events outcome => cases outcome <;> simp [runStages, Run.orElse]

theorem runStages_append (first later : List Stage) (point : Nat) : runStages access point (first ++ later) =
    (runStages access point first).orElse fun point => runStages access point later := by
  induction first generalizing point with
  | nil => simp [runStages, Run.orElse]
  | cons stage rest ih =>
    rw [List.cons_append, runStages_cons, runStages_cons access stage rest, Run.orElse_assoc]
    simp only [ih]

/-! ### The loop -/

/-- Without a further import the loop ends and leaves the point where it is. -/
theorem tryWildcards_of_none {b : Buffer} (h : (b.search Java.wildcardImport).1 = none) :
    tryWildcards s access name b = ⟨[], none, b.point⟩ := by
  rw [tryWildcards]
  split
  · next b' hsearch =>
    rw [Buffer.search] at hsearch
    split at hsearch
    · cases hsearch
      rfl
    · cases hsearch
  · next hsearch =>
    rw [hsearch] at h
    cases h

/-- At an import the loop tries the stage of its package, and goes on when that is missed. -/
theorem tryWildcards_of_some {b b' : Buffer} {m : Match} (h : b.search Java.wildcardImport = (some m, b')) :
    tryWildcards s access name b = (runStages access b.point [packageStage s name (m.groups.headD []) b'.point]).orElse
      fun _ => tryWildcards s access name b' := by
  rw [tryWildcards]
  split
  · next hsearch =>
    rw [h] at hsearch
    cases hsearch
  · next hsearch =>
    rw [h] at hsearch
    cases hsearch
    rw [runStages_singleton access rfl]
    rfl

/-- The loop does what the stages of its finds do, one after the other. -/
theorem tryWildcards_of_finds {b : Buffer} {found : List (Match × Nat)} (h : Buffer.Finds Java.wildcardImport b found) :
    tryWildcards s access name b =
      runStages access b.point (found.map fun (m, point) => packageStage s name (m.groups.headD []) point) := by
  induction h with
  | stop hnone => exact tryWildcards_of_none s access name hnone
  | @next b b' m found hsearch _ ih =>
    have hpoint : (runStages access b.point [packageStage s name (m.groups.headD []) b'.point]).point = b'.point := by
      rw [runStages_singleton access rfl]
      rfl
    rw [tryWildcards_of_some s access name hsearch, ih, List.map_cons, runStages_cons access _ (found.map _)]
    simp only [Run.orElse, hpoint]

/-- From the start the loop does what the stages of the imported packages do. -/
theorem tryWildcards_rewind (b : Buffer) (point : Nat) :
    tryWildcards s access name b.rewind = runStages access point (wildcardStages s b name) := by
  obtain ⟨found, hfound, -, hlength⟩ := Java.finds_wildcardImport b
  have hall : b.searchAll Java.wildcardImport = found := Buffer.searchAgain_eq_of_finds hfound hlength
  rw [tryWildcards_of_finds s access name hfound, wildcardStages, importedPackages, hall, List.map_map, runStages_cons,
    runStages_singleton access rfl]
  simp only [probe, Run.orElse, List.nil_append]
  rfl

theorem run_inWildcards_eq (b : Buffer) (name : Text) (point : Nat) :
    run s access b (.inWildcards name) = runStages access point (wildcardStages s b name) :=
  tryWildcards_rewind s access name b point

/-- The chain for an unqualified name tries its stages one after the other. -/
theorem runChain_eq (b : Buffer) : runChain s access b name =
    (runStages access b.point (chain s b name)).orFail (.undeclared name) := by
  rw [runChain, chain, List.append_assoc, runStages_append, runStages_append]
  have hloop : (fun _ => tryWildcards s access name b.rewind) = fun point =>
      runStages access point (wildcardStages s b name) := funext (tryWildcards_rewind s access name b)
  rw [hloop]

end SourceJump.Lookup
