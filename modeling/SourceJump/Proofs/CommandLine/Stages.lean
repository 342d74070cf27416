import SourceJump.CommandLine.Run

/-!
# The stages of a run

A run comes to its lookup by stages: it loads the configuration, reads the preferences, finds the editor's command and
its words, reads the file and finds the position; and when the lookup has found a file, it launches the editor and says
so. At each of them it can end. The families below have one case for each way to end, with what has been found out on
the way (`runInvocation_ends`, `runOnFile_ends`, `openCommand_ends`, `openFound_ends`). What is proved about whole runs
goes through these cases.
-/

namespace SourceJump.CommandLine

/-- The file that an invocation names, in normal form. -/
def Invocation.path (i : Invocation) : Text := (Path.ofText i.file).toText

/-- The command of the editor: what the invocation says, or what the configuration says. -/
def Invocation.editorCommand (i : Invocation) (room : Config.Room) (config : Entries) :
    Except Config.PreferenceError (Option Text) :=
  match i.editor with
  | none | some [] => Config.editorCommand room config
  | some command => .ok (some command)

variable (world : World) (i : Invocation) (preferences : Config.Preferences) (words : List Text)

/-! ### The file that was found -/

/-- The line that says that a path was opened. -/
def openedLine (path : Text) : Text := Text.lit "Opened " ++ path ++ Text.lit "\n"

/-- The launches for a path: one, unless there is no editor. -/
def launchesFor (path : Text) : List (List Text) := if words = [] then [] else [words ++ [path]]

/-- The editor, if there is one, takes the path. -/
def Takes (path : Text) : Prop := words ≠ [] → Editor.launch world.launch (words ++ [path]) = .ok ()

/-- All words of a command can be passed to a program. -/
def IsPassable (command : List Text) : Prop := ∀ word ∈ command, nameFault? word = none

theorem isPassable_iff {command : List Text} : IsPassable command ↔ command.findSome? nameFault? = none :=
  List.findSome?_eq_none_iff.symm

/-- A launch succeeds when its words can be passed on and the program ends well. -/
theorem launch_eq_ok_iff {outcome : Editor.Outcome} {command : List Text} :
    Editor.launch outcome command = .ok () ↔ outcome = .exited 0 ∧ IsPassable command := by
  rw [isPassable_iff]
  unfold Editor.launch
  cases command.findSome? nameFault? with
  | some fault => simp
  | none =>
    cases outcome with
    | missing => simp
    | exited status => by_cases h : status = 0 <;> simp [h]

/-- Whatever the program does, only words that cannot be passed on are at fault as words. -/
theorem exists_launch_eq_name_iff {outcome : Editor.Outcome} {command : List Text} :
    (∃ fault, Editor.launch outcome command = .error (.name fault)) ↔ ¬ IsPassable command := by
  rw [isPassable_iff]
  unfold Editor.launch
  cases command.findSome? nameFault? with
  | some fault => simp
  | none =>
    cases outcome with
    | missing => simp
    | exited status => by_cases h : status = 0 <;> simp [h]

/-- How a run ends that has found a file. -/
inductive OpenEnds (path : Text) : Ending → Prop where
  | opened (log : Log) : Takes world words path → world.prints (openedLine path) = true →
      OpenEnds path ⟨0, openedLine path, log.text, launchesFor words path, none, []⟩
  | unprinted (log : Log) : Takes world words path → world.prints (openedLine path) = false →
      OpenEnds path { log.abort .output with launches := launchesFor words path }
  | unpassable (log : Log) {fault : NameFault} : words ≠ [] →
      Editor.launch world.launch (words ++ [path]) = .error (.name fault) →
      OpenEnds path { log.abort (.name fault) with launches := launchesFor words path }
  | unlaunched (log : Log) {error : Editor.LaunchError} : words ≠ [] →
      Editor.launch world.launch (words ++ [path]) = .error error → (∀ fault, error ≠ .name fault) →
      OpenEnds path { log.fail (Text.lit "Error launching editor: " ++ Text.lit error.message) with
        launches := launchesFor words path }

/-- Once the editor has taken the path, the output decides. -/
theorem finish_ends {path : Text} (log : Log) (h : Takes world words path) :
    OpenEnds world words path (log.finish world (launchesFor words path) (openedLine path)) := by
  unfold Log.finish
  split
  · next hprints => exact .opened log h hprints
  · next hprints => exact .unprinted log h (Bool.eq_false_iff.2 hprints)

theorem openFound_ends (log : Log) (events : List Lookup.Event) (found : Lookup.Found) :
    OpenEnds world words found.path (openFound world words log events found) := by
  unfold openFound Editor.commandFor?
  by_cases hwords : words = []
  · have hlaunches : launchesFor words found.path = [] := if_pos hwords
    rw [hwords, List.isEmpty_nil, if_pos rfl, ← hwords, ← hlaunches]
    exact finish_ends world words _ fun hne => absurd hwords hne
  · have hlaunches : launchesFor words found.path = [words ++ [found.path]] := if_neg hwords
    have hnonempty : words.isEmpty = false := by simpa using hwords
    rw [hnonempty, if_neg Bool.false_ne_true]
    dsimp only
    rw [← hlaunches]
    split
    · next hlaunch => exact finish_ends world words _ fun _ => hlaunch
    · next hlaunch => exact .unpassable _ hwords hlaunch
    · next hne hlaunch => exact .unlaunched _ hwords hlaunch fun fault h => hne fault h

/-! ### From the lookup on -/

/-- A package that cannot be shown as text is not asked about. -/
def PackageWaits (r : Lookup.Run) : Prop :=
  ∀ error, preferences.package world.room = .error error → eventsBeforePackage? r = none

/-- How a run ends that has come to its lookup. The paths that it asked about are added at the end, whatever they are. -/
inductive LookupEnds (r : Lookup.Run) : Ending → Prop where
  | package {error : Config.PreferenceError} (log : Log) (probed : List Text) : ¬ PackageWaits world preferences r →
      LookupEnds r { log.abort (.preferences error) with probed := probed }
  | opened {found : Lookup.Found} {e : Ending} (probed : List Text) : PackageWaits world preferences r →
      r.outcome = some (.opened found) → OpenEnds world words found.path e → LookupEnds r { e with probed := probed }
  | failed {failure : Lookup.Failure} (log : Log) (probed : List Text) : PackageWaits world preferences r →
      r.outcome = some (.failed failure) → LookupEnds r { log.fail failure.detail with probed := probed }
  | homeUnknown (log : Log) (probed : List Text) : r.outcome = some .homeUnknown →
      LookupEnds r { log.abort .homeUnknown with probed := probed }
  | nothing (log : Log) (probed : List Text) : r.outcome = none → LookupEnds r { log.fail [] with probed := probed }

theorem openCommand_ends (log : Log) (buffer : Buffer) (command : Lookup.Command) :
    LookupEnds world preferences words (Lookup.run (preferences.settings world.room) (.ofTree world.tree) buffer command)
      (openCommand world preferences words log buffer command) := by
  unfold openCommand
  generalize Lookup.run (preferences.settings world.room) (.ofTree world.tree) buffer command = r
  dsimp only
  cases hstopped : stopAtPackage? world preferences r with
  | some stopped =>
    refine .package _ _ fun hwaits => ?_
    unfold stopAtPackage? at hstopped
    split at hstopped
    · cases hstopped
    · next error hpackage =>
      rw [hwaits error hpackage] at hstopped
      cases hstopped
  | none =>
    have hwaits : PackageWaits world preferences r := fun error hpackage => by
      rw [stopAtPackage?, hpackage] at hstopped
      exact Option.map_eq_none_iff.1 hstopped
    rcases houtcome : r.outcome with _ | ⟨found⟩ | ⟨failure⟩ | _
    · exact .nothing _ _ houtcome
    · exact .opened _ hwaits houtcome (openFound_ends world words _ _ found)
    · exact .failed _ _ hwaits houtcome
    · exact .homeUnknown _ _ houtcome

/-! ### The file and the position -/

/-- How a run ends that has come to its file. -/
inductive FileEnds (log : Log) : Ending → Prop where
  | unpassable {fault : NameFault} : world.tree.readText i.path = .error (.file (.name fault)) →
      FileEnds log (log.abort (.name fault))
  | unreadable {error : ReadError} : world.tree.readText i.path = .error error →
      (∀ fault, error ≠ .file (.name fault)) →
      FileEnds log
        (log.fail (Text.lit "Cannot read " ++ i.path ++ Text.lit ": " ++ Text.lit error.message))
  | positionLost {text : Text} : world.tree.readText i.path = .ok text → lookupCommand i text = .error none →
      FileEnds log (log.abort .positionLost)
  | refused {text : Text} {error : PositionError} : world.tree.readText i.path = .ok text →
      lookupCommand i text = .error (some error) →
      FileEnds log (log.fail
        (Text.lit "Invalid cursor position " ++ (i.position.getD []).quote ++ Text.lit ": " ++ Text.lit error.message))
  | lookup {text : Text} {command : Lookup.Command} : world.tree.readText i.path = .ok text →
      lookupCommand i text = .ok command →
      FileEnds log (openCommand world preferences words log (.ofText text (some i.path)) command)

theorem runOnFile_ends (log : Log) :
    FileEnds world i preferences words log (runOnFile world i preferences words log) := by
  unfold runOnFile
  rw [← Invocation.path]
  dsimp only
  split
  · next hread => exact .unpassable hread
  · next error hne hread => exact .unreadable hread fun fault h => hne fault h
  · next text hread =>
    split
    · next hcommand => exact .positionLost hread hcommand
    · next error hcommand => exact .refused hread hcommand
    · next command hcommand => exact .lookup hread hcommand

/-! ### The configuration and the editor -/

/-- How a run ends. -/
inductive RunEnds : Ending → Prop where
  | unloaded {error : Config.LoadError} (log : Log) :
      (Config.load world.yaml world.tree i.config).config = .error error →
      isToldLoadError error = true →
      RunEnds (log.fail (Text.lit "Error loading configuration: " ++ Text.lit error.message))
  | unexpected {error : Config.LoadError} (log : Log) :
      (Config.load world.yaml world.tree i.config).config = .error error →
      isToldLoadError error ≠ true → RunEnds (log.abort (.config error))
  | unusable {config : Entries} {error : Config.PreferenceError} (log : Log) :
      (Config.load world.yaml world.tree i.config).config = .ok config →
      Config.Preferences.ofConfig world.room config i.searchPath world.roots = .error error →
      RunEnds (log.abort (.preferences error))
  | editor {config : Entries} {error : Config.PreferenceError} (log : Log) :
      (Config.load world.yaml world.tree i.config).config = .ok config →
      i.editorCommand world.room config = .error error →
      RunEnds (log.abort (.preferences error))
  | words {config : Entries} {editor : Option Text} {error : ShellWords.Error} (log : Log) :
      (Config.load world.yaml world.tree i.config).config = .ok config →
      i.editorCommand world.room config = .ok editor →
      Editor.words editor = .error error → RunEnds (log.abort (.editor error))
  | file {config : Entries} {preferences : Config.Preferences} {editor : Option Text} {words : List Text} (log : Log) :
      (Config.load world.yaml world.tree i.config).config = .ok config →
      Config.Preferences.ofConfig world.room config i.searchPath world.roots = .ok preferences →
      i.editorCommand world.room config = .ok editor → Editor.words editor = .ok words →
      RunEnds (runOnFile world i preferences words log)

variable {i preferences}

/-- What a run does once the configuration is loaded and its preferences are read. -/
theorem exists_runInvocation_eq {config : Entries}
    (hconfig : (Config.load world.yaml world.tree i.config).config = .ok config)
    (hpreferences : Config.Preferences.ofConfig world.room config i.searchPath world.roots = .ok preferences) :
    ∃ log : Log, runInvocation world i =
      match i.editorCommand world.room config with
      | .error error => log.abort (.preferences error)
      | .ok command =>
        match Editor.words command with
        | .error error => log.abort (.editor error)
        | .ok words => runOnFile world i preferences words log := by
  unfold runInvocation
  dsimp only
  rw [hconfig]
  dsimp only
  rw [hpreferences]
  exact ⟨_, rfl⟩

variable (i)

theorem runInvocation_ends : RunEnds world i (runInvocation world i) := by
  cases hconfig : (Config.load world.yaml world.tree i.config).config with
  | error error =>
    unfold runInvocation
    dsimp only
    rw [hconfig]
    dsimp only
    split
    · next htold => exact .unloaded _ hconfig htold
    · next huntold => exact .unexpected _ hconfig huntold
  | ok config =>
    cases hpreferences : Config.Preferences.ofConfig world.room config i.searchPath world.roots with
    | error error =>
      unfold runInvocation
      dsimp only
      rw [hconfig]
      dsimp only
      rw [hpreferences]
      exact .unusable _ hconfig hpreferences
    | ok preferences =>
      obtain ⟨log, hrun⟩ := exists_runInvocation_eq world hconfig hpreferences
      rw [hrun]
      split
      · next error heditor => exact .editor log hconfig heditor
      · next editor heditor =>
        split
        · next error hwords => exact .words log hconfig heditor hwords
        · next words hwords => exact .file log hconfig hpreferences heditor hwords

end SourceJump.CommandLine
