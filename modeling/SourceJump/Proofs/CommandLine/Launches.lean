import SourceJump.Proofs.CommandLine.Inputs
import SourceJump.Proofs.Lookup.Discipline

/-!
# One launch for each success

Everything that a run takes in is looked at before its lookup: the configuration, the preferences and the editor that it
asks for, the file, the position (`Accepted`). Where one of these is refused, or where the lookup finds nothing, the run
ends without output and without a launch (`Ending.Unsuccessful`). Where the lookup finds a file, the editor, if there is
one, is launched once with the path as its last word, and the run succeeds if the launch does and the output takes the
line that says so (`Ending.Hands`).
-/

namespace SourceJump.CommandLine

/-- All that a run takes in before its lookup, with each part accepted. -/
structure Accepted (world : World) (i : Invocation) where
  config : Entries
  preferences : Config.Preferences
  /-- The words of the editor's command, none when there is no editor. -/
  words : List Text
  text : Text
  command : Lookup.Command
  config_eq : (Config.load world.yaml world.tree i.config).config = .ok config
  preferences_eq : Config.Preferences.ofConfig world.room config i.searchPath world.roots = .ok preferences
  editor : i.HasEditor world.room config words
  text_eq : world.tree.readText i.path = .ok text
  asks : i.Asks text command

/-- The lookup in what was accepted. -/
def Accepted.lookup {world : World} {i : Invocation} (a : Accepted world i) : Lookup.Run :=
  Lookup.run (a.preferences.settings world.room) (.ofTree world.tree) (.ofText a.text (some i.path)) a.command

/-- The lookup finds a file. A package that cannot be shown as text would stop it before it came to the file beside the
buffer. -/
structure Accepted.Finds {world : World} {i : Invocation} (a : Accepted world i) (found : Lookup.Found) : Prop where
  outcome : a.lookup.outcome = some (.opened found)
  package : found.strategy = .sameDirectory → ∃ package, a.preferences.package world.room = .ok package

/-! ### How a run can end -/

/-- The end of a run that has nothing to show. -/
structure Ending.Unsuccessful (e : Ending) : Prop where
  exit : e.exit = 1
  out : e.out = []
  launches : e.launches = []

/-- The launch succeeds, if there is an editor, and the output takes the line for the path. -/
structure Succeeds (world : World) (words : List Text) (path : Text) : Prop where
  launch : words ≠ [] → world.launch = .exited 0 ∧ IsPassable (words ++ [path])
  output : world.prints (openedLine path) = true

/-- The end of a run that hands a file to the editor with these words, if there are any. -/
structure Ending.Hands (e : Ending) (world : World) (words : List Text) (path : Text) : Prop where
  launches : e.launches = launchesFor words path
  success : Succeeds world words path → e.exit = 0 ∧ e.out = openedLine path
  failure : ¬ Succeeds world words path → e.exit = 1 ∧ e.out = []

theorem Log.unsuccessful_fail (log : Log) (message : Text) : (log.fail message).Unsuccessful := ⟨rfl, rfl, rfl⟩

theorem Log.unsuccessful_abort (log : Log) (failure : Unforeseen) : (log.abort failure).Unsuccessful := ⟨rfl, rfl, rfl⟩

/-- The editor takes a path when all words can be passed to it and it ends well. -/
theorem takes_iff {world : World} {words : List Text} {path : Text} :
    Takes world words path ↔ (words ≠ [] → world.launch = .exited 0 ∧ IsPassable (words ++ [path])) :=
  imp_congr_right fun _ => launch_eq_ok_iff

/-- A run that has found a file hands it over. -/
theorem OpenEnds.hands {world : World} {words : List Text} {path : Text} {e : Ending}
    (h : OpenEnds world words path e) : e.Hands world words path := by
  have hrefused : ∀ {error}, words ≠ [] → Editor.launch world.launch (words ++ [path]) = .error error →
      ¬ Succeeds world words path := by
    intro error hwords hlaunch hsucceeds
    rw [takes_iff.2 hsucceeds.launch hwords] at hlaunch
    cases hlaunch
  cases h with
  | opened log htakes hprints =>
    exact ⟨rfl, fun _ => ⟨rfl, rfl⟩, fun h => absurd ⟨takes_iff.1 htakes, hprints⟩ h⟩
  | unprinted log _ hprints =>
    refine ⟨rfl, fun hsucceeds => ?_, fun _ => ⟨rfl, rfl⟩⟩
    rw [hsucceeds.output] at hprints
    cases hprints
  | unpassable log hwords hlaunch =>
    exact ⟨rfl, fun hsucceeds => absurd hsucceeds (hrefused hwords hlaunch), fun _ => ⟨rfl, rfl⟩⟩
  | unlaunched log hwords hlaunch _ =>
    exact ⟨rfl, fun hsucceeds => absurd hsucceeds (hrefused hwords hlaunch), fun _ => ⟨rfl, rfl⟩⟩

/-! ### The lookup of a run -/

/-- Where a lookup that found a file would have stopped at a package that is no text. -/
theorem eventsBeforePackage?_eq_none_iff {r : Lookup.Run} {found : Lookup.Found}
    (h : r.outcome = some (.opened found)) : eventsBeforePackage? r = none ↔ found.strategy ≠ .sameDirectory := by
  unfold eventsBeforePackage?
  rw [h]
  by_cases hs : found.strategy = .sameDirectory <;> simp [hs]

/-- A package that is no text stops a lookup that found a file only before the file beside the buffer. -/
theorem packageWaits_iff {world : World} {preferences : Config.Preferences} {r : Lookup.Run} {found : Lookup.Found}
    (h : r.outcome = some (.opened found)) : PackageWaits world preferences r ↔
      (found.strategy = .sameDirectory → ∃ package, preferences.package world.room = .ok package) := by
  rw [PackageWaits]
  cases preferences.package world.room with
  | ok package => simp
  | error error => simp [eventsBeforePackage?_eq_none_iff h]

/-- A command hands over the file that its lookup finds. -/
theorem LookupEnds.hands {world : World} {preferences : Config.Preferences} {words : List Text} {r : Lookup.Run}
    {e : Ending} {found : Lookup.Found} (h : LookupEnds world preferences words r e)
    (houtcome : r.outcome = some (.opened found)) (hwaits : PackageWaits world preferences r) :
    e.Hands world words found.path := by
  cases h with
  | package _ _ hturn => exact absurd hwaits hturn
  | opened _ _ houtcome' hopens =>
    obtain rfl := Lookup.Outcome.opened.inj (Option.some.inj (houtcome'.symm.trans houtcome))
    obtain ⟨hlaunches, hsuccess, hfailure⟩ := hopens.hands
    exact ⟨hlaunches, hsuccess, hfailure⟩
  | failed _ _ _ houtcome' | homeUnknown _ _ houtcome' | nothing _ _ houtcome' =>
    rw [houtcome] at houtcome'
    cases houtcome'

/-- A command whose lookup finds nothing has nothing to show. -/
theorem LookupEnds.unsuccessful {world : World} {preferences : Config.Preferences} {words : List Text} {r : Lookup.Run}
    {e : Ending} (h : LookupEnds world preferences words r e)
    (hnothing : ∀ found, r.outcome = some (.opened found) → ¬ PackageWaits world preferences r) : e.Unsuccessful := by
  cases h with
  | opened _ hwaits houtcome _ => exact absurd hwaits (hnothing _ houtcome)
  | _ => exact ⟨rfl, rfl, rfl⟩

/-! ### The stages before the lookup -/

variable {world : World} {i : Invocation}

/-- A run that has accepted everything comes to its lookup. -/
theorem Accepted.exists_runInvocation_eq (a : Accepted world i) : ∃ log, runInvocation world i =
    openCommand world a.preferences a.words log (.ofText a.text (some i.path)) a.command := by
  obtain ⟨log, hrun⟩ := CommandLine.exists_runInvocation_eq world a.config_eq a.preferences_eq
  obtain ⟨editor, heditor, hwords⟩ := hasEditor_iff.1 a.editor
  refine ⟨log, hrun.trans ?_⟩
  rw [heditor]
  dsimp only
  rw [hwords]
  dsimp only
  unfold runOnFile
  rw [← Invocation.path]
  dsimp only
  rw [a.text_eq]
  dsimp only
  rw [asks_iff.1 a.asks]

/-- The lookup decides how a run that has accepted everything ends. -/
theorem Accepted.lookupEnds (a : Accepted world i) :
    LookupEnds world a.preferences a.words a.lookup (runInvocation world i) := by
  obtain ⟨log, hrun⟩ := a.exists_runInvocation_eq
  rw [hrun]
  exact openCommand_ends world a.preferences a.words log _ a.command

/-- A run has nothing to show unless it accepts everything. -/
theorem accepted_or_unsuccessful (world : World) (i : Invocation) :
    Nonempty (Accepted world i) ∨ (runInvocation world i).Unsuccessful := by
  have hends := runInvocation_ends world i
  generalize runInvocation world i = e at hends ⊢
  cases hends with
  | unloaded log _ _ => exact Or.inr (log.unsuccessful_fail _)
  | unexpected log _ _ | unusable log _ _ | editor log _ _ | words log _ _ _ => exact Or.inr (log.unsuccessful_abort _)
  | @file _ preferences _ words log hconfig hpreferences heditor hwords =>
    have hfile := runOnFile_ends world i preferences words log
    generalize runOnFile world i preferences words log = e at hfile ⊢
    cases hfile with
    | unpassable _ | positionLost _ _ => exact Or.inr (log.unsuccessful_abort _)
    | unreadable _ _ | refused _ _ => exact Or.inr (log.unsuccessful_fail _)
    | lookup htext hcommand =>
      exact Or.inl ⟨⟨_, _, _, _, _, hconfig, hpreferences, hasEditor_iff.2 ⟨_, heditor, hwords⟩, htext,
        asks_iff.2 hcommand⟩⟩

/-! ### Whole runs -/

/-- A run hands over what its lookup finds. -/
theorem Accepted.Finds.hands {a : Accepted world i} {found : Lookup.Found} (h : a.Finds found) :
    (runInvocation world i).Hands world a.words found.path :=
  a.lookupEnds.hands h.outcome ((packageWaits_iff h.outcome).2 h.package)

/-- A run that finds nothing has nothing to show. -/
theorem finds_or_unsuccessful (world : World) (i : Invocation) :
    (∃ (a : Accepted world i) (found : Lookup.Found), a.Finds found) ∨ (runInvocation world i).Unsuccessful := by
  refine or_iff_not_imp_left.2 fun hnothing => ?_
  rcases accepted_or_unsuccessful world i with ⟨⟨a⟩⟩ | hunsuccessful
  · refine a.lookupEnds.unsuccessful fun found houtcome hwaits => ?_
    exact hnothing ⟨a, found, houtcome, (packageWaits_iff houtcome).1 hwaits⟩
  · exact hunsuccessful

/-- **A run launches the editor once for the file that it finds, and otherwise never.** It ends with exit status 0
exactly when all that it takes in is accepted, its lookup finds a file, the launch succeeds, if there is an editor, and
the output takes the line; then it prints the path, and nothing in any other case. The path is the last word of the
launch, as it is. -/
theorem run_launches_once {arguments : List Text} (hparse : parse world.edition arguments = .invocation i) :
    ((run world arguments).exit = 0 ↔ ∃ (a : Accepted world i) (found : Lookup.Found),
      a.Finds found ∧ Succeeds world a.words found.path) ∧
    ((run world arguments).exit ≠ 0 → (run world arguments).out = []) ∧
    (∀ (a : Accepted world i) (found : Lookup.Found), a.Finds found →
      ((run world arguments).exit = 0 →
        (run world arguments).out = Text.lit "Opened " ++ found.path ++ Text.lit "\n") ∧
      (run world arguments).launches = (if a.words = [] then [] else [a.words ++ [found.path]]) ∧
      Lookup.opens a.lookup.events = [found.path]) ∧
    ((∀ (a : Accepted world i) (found : Lookup.Found), ¬ a.Finds found) → (run world arguments).launches = []) := by
  have hrun : run world arguments = runInvocation world i := by rw [run, hparse]
  rw [hrun]
  refine ⟨⟨fun hexit => ?_, ?_⟩, fun hexit => ?_, fun a found hfinds => ⟨fun hexit => ?_, ?_, ?_⟩, fun hnothing => ?_⟩
  · rcases finds_or_unsuccessful world i with ⟨a, found, hfinds⟩ | hunsuccessful
    · refine ⟨a, found, hfinds, ?_⟩
      by_contra hfails
      rw [(hfinds.hands.failure hfails).1] at hexit
      cases hexit
    · rw [hunsuccessful.exit] at hexit
      cases hexit
  · rintro ⟨a, found, hfinds, hsucceeds⟩
    exact (hfinds.hands.success hsucceeds).1
  · rcases finds_or_unsuccessful world i with ⟨a, found, hfinds⟩ | hunsuccessful
    · exact (hfinds.hands.failure fun hsucceeds => hexit (hfinds.hands.success hsucceeds).1).2
    · exact hunsuccessful.out
  · by_cases hsucceeds : Succeeds world a.words found.path
    · exact (hfinds.hands.success hsucceeds).2
    · rw [(hfinds.hands.failure hsucceeds).1] at hexit
      cases hexit
  · exact hfinds.hands.launches
  · exact Lookup.opens_eq_of_opened hfinds.outcome
  · rcases finds_or_unsuccessful world i with ⟨a, found, hfinds⟩ | hunsuccessful
    · exact absurd hfinds (hnothing a found)
    · exact hunsuccessful.launches

/-- An editor of two words under `command` in the configuration, and a root with a space in its name: the path is one
word of the launch. -/
theorem run_launches_once_of_configured_editor :
    let world := worldOfFiles [("c.yml", "editor: \x7bcommand: vi -f\x7d"), ("M.java", "C\nimport p.C;"),
      ("my lib/p/C.java", "")] (.exited 0)
    let arguments := [Text.lit "--config", Text.lit "c.yml", Text.lit "-s", Text.lit "my lib", Text.lit "at-point",
      Text.lit "M.java", Text.lit "0"]
    let i : Invocation :=
      ⟨some (Text.lit "c.yml"), [Text.lit "my lib"], none, false, .atPoint, Text.lit "M.java", some (Text.lit "0")⟩
    parse world.edition arguments = .invocation i ∧
    (∃ (a : Accepted world i) (found : Lookup.Found), a.Finds found ∧ Succeeds world a.words found.path ∧
      (run world arguments).launches = (if a.words = [] then [] else [a.words ++ [found.path]]) ∧
      (run world arguments).out = Text.lit "Opened " ++ found.path ++ Text.lit "\n") ∧
    (run world arguments).launches = [[Text.lit "vi", Text.lit "-f", Text.lit "my lib/p/C.java"]] := by
  intro world arguments i
  have hparse : parse world.edition arguments = .invocation i := rfl
  have hexit : (run world arguments).exit = 0 := by decide +kernel
  obtain ⟨hsuccess, -, hfound, -⟩ := run_launches_once hparse
  obtain ⟨a, found, hfinds, hsucceeds⟩ := hsuccess.1 hexit
  obtain ⟨hout, hlaunches, -⟩ := hfound a found hfinds
  exact ⟨hparse, ⟨a, found, hfinds, hsucceeds, hlaunches, hout hexit⟩, by decide +kernel⟩

end SourceJump.CommandLine
