import SourceJump.Proofs.Java.DottedName
import SourceJump.Proofs.Lookup.PackageLoop
import SourceJump.Proofs.Lookup.Probe

/-!
# The chain as one ordered list of candidates

An unqualified name is looked for in one list of candidates: those of its own import, those of the
imported packages in the order of the text, those of the package that needs no import, and the file beside
the buffer's own (`searchOrder`). A command fails at once, or it looks for one name, as it stands or through
the chain (`run_comesTo`), so that every command goes through a list of candidates in this sense
(`run_searches`). The command at the cursor asks about the list up to the first readable candidate and
opens that (`atCursor_opens_first_readable`).
-/

namespace SourceJump.Lookup

/-- Where the class with an unqualified name may lie, first to last. -/
def searchOrder (s : Settings) (b : Buffer) (name : Text) : List Candidate :=
  ((findImport b name).1.toList.flatMap fun fullName => s.candidates .singleImport name fullName) ++
  ((Java.packageImports b.text).flatMap fun i => s.candidates .wildcardImport name (Java.memberName i.2 name)) ++
  ((s.implicitPackage.filter (· ≠ [])).toList.flatMap fun package =>
    s.candidates .implicitPackage name (Java.memberName package name)) ++
  (b.filePath.filter (· ≠ [])).toList.map fun file =>
    ⟨Path.join (Path.directory file) (Path.withSuffix name s.extension), .sameDirectory, name, name⟩

theorem className_of_mem_candidates {s : Settings} {strategy : Strategy} {name fullName : Text} {c : Candidate}
    (h : c ∈ s.candidates strategy name fullName) : c.className = name := by
  obtain ⟨root, -, rfl⟩ := List.mem_map.1 h
  rfl

theorem strategy_of_mem_candidates {s : Settings} {strategy : Strategy} {name fullName : Text} {c : Candidate}
    (h : c ∈ s.candidates strategy name fullName) : c.strategy = strategy := by
  obtain ⟨root, -, rfl⟩ := List.mem_map.1 h
  rfl

theorem strategy_of_mem_flatMap {α : Type} {s : Settings} {strategy : Strategy} {name : Text} {sources : List α}
    {fullName : α → Text} {c : Candidate} (h : c ∈ sources.flatMap fun i => s.candidates strategy name (fullName i)) :
    c.strategy = strategy := by
  obtain ⟨i, -, hc⟩ := List.mem_flatMap.1 h
  exact strategy_of_mem_candidates hc

/-- The files for a dotted name are asked for in the same way for every name that was asked for and every strategy over
the search path; the two come up in the outcome only. -/
theorem exists_probe_candidates (s : Settings) (access : FileAccess) (full : Text) :
    ∃ (events : List Event) (path? : Option Text), ∀ strategy ≠ Strategy.sameDirectory, ∀ name,
      probe access (s.candidates strategy name full) =
        (events, path?.map fun path => .opened ⟨path, strategy, name⟩) := by
  simp only [Settings.candidates]
  induction s.searchPath with
  | nil => exact ⟨[], none, fun _ _ _ => rfl⟩
  | cons root roots ih =>
    obtain ⟨path, hpath⟩ : ∃ path, path = Path.join root (Java.relativePath full s.extension) := ⟨_, rfl⟩
    cases hread : access.readable path with
    | true =>
      refine ⟨[.probed path, .opened path full], some path, fun strategy hne name => ?_⟩
      simp [probe, Candidate.select, ← hpath, hread, hne]
    | false =>
      obtain ⟨events, path?, h⟩ := ih
      refine ⟨.probed path :: events, path?, fun strategy hne name => ?_⟩
      simp [probe, ← hpath, hread, h strategy hne name]

/-- The path is that of a file beside the file of the buffer, with a name that the settings give to classes. -/
def BesideBuffer (s : Settings) (b : Buffer) (path : Text) : Prop :=
  ∃ file name, b.filePath = some file ∧ path = Path.join (Path.directory file) (Path.withSuffix name s.extension)

/-- A candidate of the search order comes from a strategy over the search path, or it is the one beside the
buffer. -/
theorem mem_searchOrder_cases {s : Settings} {b : Buffer} {name : Text} {c : Candidate}
    (h : c ∈ searchOrder s b name) :
    (∃ strategy fullName, strategy ≠ Strategy.sameDirectory ∧ c ∈ s.candidates strategy name fullName) ∨
    (∃ file, b.filePath = some file ∧
      c = ⟨Path.join (Path.directory file) (Path.withSuffix name s.extension), .sameDirectory, name, name⟩) := by
  rw [searchOrder, List.mem_append, List.mem_append, List.mem_append] at h
  rcases h with ((h | h) | h) | h
  · obtain ⟨_, -, hc⟩ := List.mem_flatMap.1 h
    exact .inl ⟨_, _, by decide, hc⟩
  · obtain ⟨_, -, hc⟩ := List.mem_flatMap.1 h
    exact .inl ⟨_, _, by decide, hc⟩
  · obtain ⟨_, -, hc⟩ := List.mem_flatMap.1 h
    exact .inl ⟨_, _, by decide, hc⟩
  · obtain ⟨file, hfile, rfl⟩ := List.mem_map.1 h
    rw [Option.mem_toList, Option.filter_eq_some_iff] at hfile
    exact .inr ⟨file, hfile.1, rfl⟩

/-- Only the last candidate is a file beside the buffer. -/
theorem besideBuffer_of_mem_searchOrder {s : Settings} {b : Buffer} {name : Text} {c : Candidate}
    (h : c ∈ searchOrder s b name) (hs : c.strategy = .sameDirectory) : BesideBuffer s b c.path := by
  rcases mem_searchOrder_cases h with ⟨strategy, fullName, hne, hc⟩ | ⟨file, hfile, rfl⟩
  · exact absurd ((strategy_of_mem_candidates hc).symm.trans hs) hne
  · exact ⟨file, name, hfile, rfl⟩

/-- All candidates answer for the name that was asked for. -/
theorem className_of_mem_searchOrder {s : Settings} {b : Buffer} {name : Text} {c : Candidate}
    (h : c ∈ searchOrder s b name) : c.className = name := by
  rcases mem_searchOrder_cases h with ⟨strategy, fullName, -, hc⟩ | ⟨file, -, rfl⟩
  · exact className_of_mem_candidates hc
  · rfl

/-! ### The stages of the chain -/

theorem importStages_candidates (s : Settings) (b : Buffer) (name : Text) :
    (importStages s b name).flatMap (·.candidates) =
      (findImport b name).1.toList.flatMap fun fullName => s.candidates .singleImport name fullName := by
  unfold importStages
  cases h : findImport b name with
  | mk found b' => cases found <;> simp

theorem wildcardStages_candidates (s : Settings) (b : Buffer) (name : Text) :
    (wildcardStages s b name).flatMap (·.candidates) =
      (Java.packageImports b.text).flatMap fun i => s.candidates .wildcardImport name (Java.memberName i.2 name) := by
  have h := congrArg (List.flatMap fun package => s.candidates .wildcardImport name (Java.memberName package name))
    (importedPackages_eq b)
  rw [List.flatMap_map, List.flatMap_map] at h
  rw [wildcardStages, List.flatMap_cons, List.flatMap_map, List.nil_append]
  exact h

theorem implicitStages_candidates (s : Settings) (name : Text) :
    (implicitStages s name).flatMap (·.candidates) =
      (s.implicitPackage.filter (· ≠ [])).toList.flatMap fun package =>
        s.candidates .implicitPackage name (Java.memberName package name) := by
  unfold implicitStages
  rcases s.implicitPackage with _ | _ | ⟨c, package⟩
  · rfl
  · rfl
  · simp [Option.filter]

theorem siblingStages_candidates (s : Settings) (b : Buffer) (name : Text) :
    (siblingStages s b name).flatMap (·.candidates) = (b.filePath.filter (· ≠ [])).toList.map fun file =>
      ⟨Path.join (Path.directory file) (Path.withSuffix name s.extension), .sameDirectory, name, name⟩ := by
  unfold siblingStages
  rcases b.filePath with _ | _ | ⟨c, file⟩
  · rfl
  · rfl
  · simp [Option.filter]

/-- The stages of the chain, one after the other, have the candidates of the search order. -/
theorem chain_candidates (s : Settings) (b : Buffer) (name : Text) :
    (chain s b name).flatMap (·.candidates) = searchOrder s b name := by
  rw [chain, List.flatMap_append, List.flatMap_append, List.flatMap_append, importStages_candidates,
    wildcardStages_candidates, implicitStages_candidates, siblingStages_candidates, searchOrder]

theorem whenMissed_of_mem_wildcardStages {s : Settings} {b : Buffer} {name : Text} {stage : Stage}
    (h : stage ∈ wildcardStages s b name) : stage.whenMissed = [] := by
  rcases List.mem_cons.1 h with rfl | h
  · rfl
  · obtain ⟨⟨package, point⟩, -, rfl⟩ := List.mem_map.1 h
    rfl

theorem wildcardStages_quiet (s : Settings) (b : Buffer) (name : Text) :
    ∀ stage ∈ wildcardStages s b name, stage.Quiet := by
  intro stage h
  rw [Stage.Quiet, whenMissed_of_mem_wildcardStages h]
  rfl

theorem chain_quiet (s : Settings) (b : Buffer) (name : Text) : ∀ stage ∈ chain s b name, stage.Quiet := by
  intro stage h
  rw [chain, List.mem_append, List.mem_append, List.mem_append] at h
  rcases h with ((h | h) | h) | h
  · unfold importStages at h
    split at h
    · obtain rfl := List.mem_singleton.1 h
      rfl
    · simp at h
  · exact wildcardStages_quiet s b name stage h
  · unfold implicitStages at h
    split at h
    · simp at h
    · simp at h
    · obtain rfl := List.mem_singleton.1 h
      rfl
  · unfold siblingStages at h
    split at h
    · simp at h
    · simp at h
    · obtain rfl := List.mem_singleton.1 h
      rfl

/-! ### Every command goes through a list -/

theorem runChain_follows (s : Settings) (access : FileAccess) (b : Buffer) (name : Text) :
    (runChain s access b name).Follows access (searchOrder s b name) (some (.failed (.undeclared name))) := by
  rw [runChain_eq, ← chain_candidates]
  exact (runStages_follows access (chain_quiet s b name) b.point).orFail _

theorem runDirect_follows (s : Settings) (access : FileAccess) (point : Nat) (strategy : Strategy) (name : Text) :
    (runDirect s access point strategy name).Follows access (s.candidates strategy name name)
      (some (.failed (.notOnSearchPath name))) := by
  have hq : ∀ stage ∈ [s.directStage strategy name], stage.Quiet := by
    intro stage h
    obtain rfl := List.mem_singleton.1 h
    rfl
  have h := (runStages_follows access hq point).orFail (.notOnSearchPath name)
  rwa [List.flatMap_singleton] at h

theorem run_inWildcards_follows (s : Settings) (access : FileAccess) (b : Buffer) (name : Text) :
    (run s access b (.inWildcards name)).Follows access
      ((Java.packageImports b.text).flatMap fun i => s.candidates .wildcardImport name (Java.memberName i.2 name))
      none := by
  rw [run_inWildcards_eq s access b name b.point, ← wildcardStages_candidates]
  exact runStages_follows access (wildcardStages_quiet s b name) b.point

/-- The run is a search through a row of candidates, only files beside the buffer among them being opened by their
absolute paths. It ends with nothing or with a failure when no candidate is readable. -/
def Searches (s : Settings) (access : FileAccess) (b : Buffer) (run : Run) : Prop :=
  ∃ cs missed, run.Follows access cs missed ∧ (missed = none ∨ ∃ failure, missed = some (.failed failure)) ∧
    ∀ c ∈ cs, c.strategy = .sameDirectory → BesideBuffer s b c.path

theorem Searches.failed (s : Settings) (access : FileAccess) (b : Buffer) (failure : Failure) (point : Nat) :
    Searches s access b (.failed failure point) :=
  ⟨[], _, Run.failed_follows failure point, Or.inr ⟨failure, rfl⟩, by simp⟩

theorem runDirect_searches (s : Settings) (access : FileAccess) (b : Buffer) (point : Nat) {strategy : Strategy}
    (name : Text) (hne : strategy ≠ .sameDirectory) : Searches s access b (runDirect s access point strategy name) :=
  ⟨_, _, runDirect_follows s access point strategy name, Or.inr ⟨_, rfl⟩,
    fun _ hc hs => absurd ((strategy_of_mem_candidates hc).symm.trans hs) hne⟩

theorem runChain_searches (s : Settings) (access : FileAccess) (b b' : Buffer) (name : Text)
    (hfile : b'.filePath = b.filePath) : Searches s access b (runChain s access b' name) := by
  refine ⟨_, _, runChain_follows s access b' name, Or.inr ⟨_, rfl⟩, fun c hc hs => ?_⟩
  obtain ⟨file, name', hpath, hc⟩ := besideBuffer_of_mem_searchOrder hc hs
  exact ⟨file, name', hfile.symm.trans hpath, hc⟩

theorem filePath_search (b : Buffer) (p : Pattern) : (b.search p).2.filePath = b.filePath := by
  rw [Buffer.search]
  split <;> rfl

theorem isName_wordAt {b : Buffer} {offset : Int} {name : Text} (h : Buffer.wordAt b.text offset = name)
    (hne : name ≠ []) : Java.IsName name := by
  refine ⟨hne, fun c hc => ?_⟩
  subst h
  rcases List.mem_append.1 hc with hc | hc
  · exact List.mem_takeWhile_imp (List.mem_reverse.1 hc)
  · exact List.mem_takeWhile_imp hc

/-- The name that a command looks for: the one that it has been given, or the one that it finds in the buffer. -/
inductive Command.LooksFor (b : Buffer) : Command → Text → Prop where
  | resolve (name : Text) : LooksFor b (.resolve name) name
  | atCursor {offset : Int} {name : Text} : Buffer.wordAt b.text offset = name → Java.IsName name →
      LooksFor b (.atCursor offset) name
  | importAt {offset : Int} {m : Match} : Java.importLine.matchStart (Buffer.lineAt b.text offset) = some m →
      LooksFor b (.importAt offset) (m.groups.headD [])
  | baseClass {file : Text} {m : Match} : b.filePath = some file →
      (Java.classHeader (Path.ofText file).stem).search b.text 0 = some m → LooksFor b .baseClass (m.groups.headD [])

/-- What a command comes to: it fails at once, or it looks for its name as it stands or, when there are no dots in it,
through the chain, or it goes through the imported packages. -/
inductive ComesTo (s : Settings) (access : FileAccess) (b : Buffer) : Command → Run → Prop where
  | failure {c : Command} (failure : Failure) (point : Nat) : ComesTo s access b c (.failed failure point)
  | direct {c : Command} {name : Text} {strategy : Strategy} (point : Nat) : c.LooksFor b name →
      strategy ≠ .sameDirectory → ComesTo s access b c (runDirect s access point strategy name)
  | chain {c : Command} {b' : Buffer} {name : Text} : c.LooksFor b name → CodePoint.char '.' ∉ name →
      b'.text = b.text → b'.filePath = b.filePath → ComesTo s access b c (runChain s access b' name)
  | wildcards (name : Text) :
      ComesTo s access b (.inWildcards name) (tryWildcards s access name b.rewind)

theorem run_comesTo (s : Settings) (access : FileAccess) (b : Buffer) (c : Command) :
    ComesTo s access b c (run s access b c) := by
  cases c with
  | resolve name => exact .direct b.point (.resolve name) (by decide)
  | inWildcards name => exact .wildcards name
  | atCursor offset =>
    simp only [run]
    split
    · exact .failure _ _
    · next name hne =>
      have hname : Java.IsName (Buffer.wordAt b.text offset) := isName_wordAt rfl hne
      exact .chain (.atCursor rfl hname) (Java.dot_not_mem hname.chars) rfl rfl
  | importAt offset =>
    simp only [run]
    split
    · exact .failure _ _
    · next m hm => exact .direct b.point (.importAt hm) (by decide)
  | baseClass =>
    simp only [run, runBaseClass]
    split
    · exact .failure _ _
    · exact .failure _ _
    · next file _ hpath =>
      have hfile := filePath_search b.rewind (Java.classHeader (Path.ofText file).stem)
      have htext := Buffer.text_search b.rewind (Java.classHeader (Path.ofText file).stem)
      have hfound := Buffer.search_fst b.rewind (Java.classHeader (Path.ofText file).stem)
      split
      · exact .failure _ _
      · next m b' hsearch =>
        rw [hsearch] at hfile htext hfound
        have hname : Command.LooksFor b .baseClass (m.groups.headD []) := .baseClass hpath hfound.symm
        split
        · exact .direct b'.point hname (by decide)
        · next hdot => exact .chain hname (by simpa using hdot) htext hfile

/-- Every command is a search through a row of candidates. -/
theorem run_searches (s : Settings) (access : FileAccess) (b : Buffer) (c : Command) :
    Searches s access b (run s access b c) := by
  have hcomes := run_comesTo s access b c
  generalize run s access b c = r at hcomes ⊢
  cases hcomes with
  | failure failure point => exact .failed s access b failure point
  | direct point _ hne => exact runDirect_searches s access b point _ hne
  | chain _ _ _ hfile => exact runChain_searches s access b _ _ hfile
  | wildcards name =>
    refine ⟨_, _, run_inWildcards_follows s access b name, Or.inl rfl, fun c hc hs => ?_⟩
    obtain ⟨i, -, hc⟩ := List.mem_flatMap.1 hc
    rw [strategy_of_mem_candidates hc] at hs
    cases hs

theorem run_atCursor_follows (s : Settings) (access : FileAccess) (b : Buffer) {offset : Int} {name : Text}
    (hname : Buffer.wordAt b.text offset = name) (hne : name ≠ []) :
    (run s access b (.atCursor offset)).Follows access (searchOrder s b name)
      (some (.failed (.undeclared name))) := by
  have hrun : run s access b (.atCursor offset) = runChain s access b name := by
    simp only [run, hname]
  rw [hrun]
  exact runChain_follows s access b name

/-- **The lookup at the cursor is a search for the first readable candidate.** It asks about the search order up
to that candidate, about nothing else and in this order, and opens it; when no candidate is readable, it asks about
all of them and says that no import declares the class. -/
theorem atCursor_opens_first_readable (s : Settings) (access : FileAccess) (b : Buffer) (offset : Int) (name : Text)
    (hname : Buffer.wordAt b.text offset = name) (hne : name ≠ []) :
    (∀ misses c rest, searchOrder s b name = misses ++ c :: rest →
      (∀ m ∈ misses, access.readable m.path = false) → access.readable c.path = true →
      probes (run s access b (.atCursor offset)).events = (misses ++ [c]).map (·.path) ∧
      (run s access b (.atCursor offset)).outcome = some ((c.openedPath? access).elim .homeUnknown fun path =>
        .opened ⟨path, c.strategy, name⟩)) ∧
    ((∀ c ∈ searchOrder s b name, access.readable c.path = false) →
      probes (run s access b (.atCursor offset)).events = (searchOrder s b name).map (·.path) ∧
      (run s access b (.atCursor offset)).outcome = some (.failed (.undeclared name)) ∧
      (run s access b (.atCursor offset)).outcome.bind Outcome.report? =
        some (.failed .classNotFound (Text.lit "no import declaration found for class " ++ name))) := by
  have hrun := run_atCursor_follows s access b hname hne
  refine ⟨fun misses c rest horder hm hc => ?_, fun hm => ?_⟩
  · have hmem : c ∈ searchOrder s b name := by simp [horder]
    have hclass : c.className = name := className_of_mem_searchOrder hmem
    rw [horder] at hrun
    refine ⟨?_, ?_⟩
    · rw [hrun.probes_of_first hm hc, List.map_append, List.map_singleton]
    · rw [hrun.outcome_of_first hm hc, hclass]
  · have houtcome := (hrun.of_missed hm).2
    refine ⟨hrun.probes_of_missed hm, houtcome, ?_⟩
    rw [houtcome]
    rfl

/-- With two roots, a class of an imported package is found below the second root, after a look below the first. -/
theorem atCursor_opens_imported_below_second_root :
    let s : Settings := ⟨[Text.lit "a", Text.lit "b"], Text.lit "java", some (Text.lit "p")⟩
    let b := Buffer.ofText (Text.lit "import q.*;\nC") (some (Text.lit "d/M.java"))
    let access : FileAccess := ⟨fun path => path ∈ [Text.lit "b/q/C.java", Text.lit "d/C.java"], some⟩
    probes (run s access b (.atCursor 12)).events = [Text.lit "a/q/C.java", Text.lit "b/q/C.java"] ∧
    (run s access b (.atCursor 12)).outcome =
      some (.opened ⟨Text.lit "b/q/C.java", .wildcardImport, Text.lit "C"⟩) := by
  intro s b access
  exact (atCursor_opens_first_readable s access b 12 (Text.lit "C") (by decide) (by decide)).1
    [⟨Text.lit "a/q/C.java", .wildcardImport, Text.lit "C", Text.lit "q.C"⟩]
    ⟨Text.lit "b/q/C.java", .wildcardImport, Text.lit "C", Text.lit "q.C"⟩
    [⟨Text.lit "a/p/C.java", .implicitPackage, Text.lit "C", Text.lit "p.C"⟩,
      ⟨Text.lit "b/p/C.java", .implicitPackage, Text.lit "C", Text.lit "p.C"⟩,
      ⟨Text.lit "d/C.java", .sameDirectory, Text.lit "C", Text.lit "C"⟩]
    (by decide) (by decide) (by decide)

end SourceJump.Lookup
