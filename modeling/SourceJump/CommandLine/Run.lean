import SourceJump.CommandLine.Help
import SourceJump.Config.Preferences
import SourceJump.Editor.Launch
import SourceJump.Position

/-!
# Running the program

A run reads the command line, loads the configuration, prepares lookup and editor, reads the file,
finds the position, runs the lookup and hands what it found to the editor. It ends with an exit
status and with what it wrote. Most failures are told in one line on the error output, with exit
status 1; some are not foreseen and end the run as they are.
-/

namespace SourceJump.CommandLine

/-- What a run finds outside of its command line. -/
structure World where
  tree : FileTree
  /-- The list of source roots in the environment. -/
  roots : Option Text
  /-- What launching the editor does. -/
  launch : Editor.Outcome
  /-- What reads the document of the configuration. -/
  yaml : Yaml.Loader
  room : Config.Room
  /-- Whether the output takes a text: not every encoding has all characters. -/
  prints : Text → Bool
  /-- The rules by which the command line is read. -/
  edition : Edition

/-- A failure that no line on the error output tells. -/
inductive Unforeseen where
  | config (error : Config.LoadError)
  | preferences (error : Config.PreferenceError)
  | editor (error : ShellWords.Error)
  /-- The path of the file, or a word of the editor's command, cannot be passed to the system. -/
  | name (fault : NameFault)
  | homeUnknown
  | positionLost
  /-- The output does not take the line that says what was opened. -/
  | output
  deriving DecidableEq

/-- How a run ends. -/
structure Ending where
  exit : Nat
  out : Text
  err : Text
  /-- The commands that were handed over for launching, whatever came of it. -/
  launches : List (List Text)
  unforeseen : Option Unforeseen
  /-- The paths whose readability mattered, in the order of the questions. -/
  probed : List Text

/-- The lines that a run tells when it is verbose, and whether it is. -/
structure Log where
  verbose : Bool
  lines : List Text

namespace Log

/-- Tells one more line. -/
def tell (log : Log) (line : Text) : Log :=
  { log with lines := log.lines ++ [line] }

/-- What stands on the error output. -/
def text (log : Log) : Text :=
  if log.verbose then log.lines.flatMap fun line => line ++ Text.lit "\n" else []

/-- The end of a run that says why it failed. -/
def fail (log : Log) (message : Text) : Ending :=
  ⟨1, [], log.text ++ message ++ Text.lit "\n", [], none, []⟩

/-- The end of a run by a failure that was not foreseen. -/
def abort (log : Log) (failure : Unforeseen) : Ending :=
  ⟨1, [], log.text, [], some failure, []⟩

end Log

/-- The line that an event of a lookup tells, if it tells one. -/
def eventLine? : Lookup.Event → Option Text
  | .probed path => some (Text.lit "Trying " ++ path)
  | .importMissed name =>
    some (Text.lit "Import " ++ name ++ Text.lit " not found on the search path")
  | .madeAbsolute _ => none
  | .opened _ _ => none

/-- The path that an event asks about. -/
def probedPath? : Lookup.Event → Option Text
  | .probed path => some path
  | _ => none

/-- The file and the name with which a lookup ends, if it opens something. -/
def openedBy? (events : List Lookup.Event) : Option (Text × Text) :=
  events.findSome? fun
    | .opened path name => some (path, name)
    | _ => none

/-- The line that tells which file is opened for which class. -/
def openingLine (path name : Text) : Text :=
  Text.lit "Opening " ++ path ++ Text.lit " for class " ++ name

/-- The end of a run that has opened a file with these launches, if the output takes the line that says so. -/
def Log.finish (world : World) (log : Log) (launches : List (List Text)) (told : Text) : Ending :=
  if world.prints told then ⟨0, told, log.text, launches, none, []⟩
  else { log.abort .output with launches := launches }

/-- Hands the file that was found to the editor. -/
def openFound (world : World) (editor : List Text) (log : Log) (events : List Lookup.Event)
    (found : Lookup.Found) : Ending :=
  let line := match openedBy? events with
    | some (path, name) => openingLine path name
    | none => openingLine found.path found.className
  let told := (Lookup.Report.opened found).message ++ Text.lit "\n"
  match Editor.commandFor? editor found.path with
  | none => (log.tell line).finish world [] told
  | some command =>
    let log := log.tell (Text.lit "Running: " ++ Text.join [' '] command)
    match Editor.launch world.launch command with
    | .ok () => (log.tell line).finish world [command] told
    | .error (.name fault) => { log.abort (.name fault) with launches := [command] }
    | .error error =>
      let reason := Text.lit error.message
      { log.fail (Text.lit "Error launching editor: " ++ reason) with launches := [command] }

/-- The events before the last question about a path. -/
def eventsBeforeLastProbe (events : List Lookup.Event) : List Lookup.Event :=
  (events.reverse.dropWhile fun event => (probedPath? event).isNone).tail.reverse

/-- The events of a run without a package that needs no import, up to the place where such a package
has its turn; `none` when the run ended before it. Only the file beside the buffer, which is asked
about last, has a later turn. -/
def eventsBeforePackage? (run : Lookup.Run) : Option (List Lookup.Event) :=
  let events := eventsBeforeLastProbe run.events
  match run.outcome with
  | some (.opened found) => if found.strategy = .sameDirectory then some events else none
  | some (.failed (.undeclared _)) | some .homeUnknown => some events
  | _ => none

/-- The events up to the place where a run stops because its package is no text, and why it is none. -/
def stopAtPackage? (world : World) (preferences : Config.Preferences) (run : Lookup.Run) :
    Option (List Lookup.Event × Config.PreferenceError) :=
  match preferences.package world.room with
  | .ok _ => none
  | .error error => (eventsBeforePackage? run).map (·, error)

/-- Runs a lookup and opens what it finds. -/
def openCommand (world : World) (preferences : Config.Preferences) (editor : List Text) (log : Log)
    (buffer : Buffer) (command : Lookup.Command) : Ending :=
  let run := Lookup.run (preferences.settings world.room) (.ofTree world.tree) buffer command
  let logOf (events : List Lookup.Event) : Log :=
    (events.filterMap eventLine?).foldl Log.tell log
  let ending := match stopAtPackage? world preferences run, run.outcome with
    | some (events, error), _ => (logOf events).abort (.preferences error)
    | none, some (.opened found) => openFound world editor (logOf run.events) run.events found
    | none, some (.failed failure) => (logOf run.events).fail failure.detail
    | none, some .homeUnknown => (logOf run.events).abort .homeUnknown
    | none, none => (logOf run.events).fail []
  { ending with probed := run.events.filterMap probedPath? }

/-- Finds the lookup that an invocation asks for. -/
def lookupCommand (i : Invocation) (text : Text) :
    Except (Option PositionError) Lookup.Command :=
  match i.command with
  | .baseClass => .ok .baseClass
  | .atPoint | .importAtPoint =>
    match i.position with
    | none => .error none
    | some position =>
      match Position.parse text position with
      | .error error => .error (some error)
      | .ok offset => .ok (if i.command = .atPoint then .atCursor offset else .importAt offset)

/-- Runs the command of an invocation on its file. -/
def runOnFile (world : World) (i : Invocation) (preferences : Config.Preferences)
    (editor : List Text) (log : Log) : Ending :=
  let file := (Path.ofText i.file).toText
  match world.tree.readText file with
  | .error (.file (.name fault)) => log.abort (.name fault)
  | .error error =>
    let reason := Text.lit error.message
    log.fail (Text.lit "Cannot read " ++ file ++ Text.lit ": " ++ reason)
  | .ok text =>
    match lookupCommand i text with
    | .error none => log.abort .positionLost
    | .error (some error) =>
      let shown := (i.position.getD []).quote
      let reason := Text.lit error.message
      log.fail (Text.lit "Invalid cursor position " ++ shown ++ Text.lit ": " ++ reason)
    | .ok command => openCommand world preferences editor log (.ofText text (some file)) command

/-- The failures of loading that are told in one line. An escape for a number of more than 31 bits
is not among them. -/
def isToldLoadError : Config.LoadError → Bool
  | .yaml (.notBool _) | .yaml .notTimestamp | .yaml .timestampMapping | .yaml .emptyNumber => false
  | .yaml .tooManyParts | .yaml .tooDeep => false
  | .yaml (.noCodePoint code) => code < Nat.pow 2 31
  | _ => true

/-- Runs an invocation. -/
def runInvocation (world : World) (i : Invocation) : Ending :=
  let loaded := Config.load world.yaml world.tree i.config
  let log : Log := ⟨i.verbose, []⟩
  let log := match loaded.file with
    | some file => log.tell (Text.lit "Loaded configuration from " ++ file)
    | none => log
  match loaded.config with
  | .error error =>
    let reason := Text.lit error.message
    if isToldLoadError error then log.fail (Text.lit "Error loading configuration: " ++ reason)
    else log.abort (.config error)
  | .ok config =>
    match Config.Preferences.ofConfig world.room config i.searchPath world.roots with
    | .error error => log.abort (.preferences error)
    | .ok preferences =>
      let command := match i.editor with
        | none | some [] => Config.editorCommand world.room config
        | some command => .ok (some command)
      match command with
      | .error error => log.abort (.preferences error)
      | .ok command =>
        match Editor.words command with
        | .error error => log.abort (.editor error)
        | .ok editor => runOnFile world i preferences editor log

/-- Runs the program with the given arguments. -/
def run (world : World) (arguments : List Text) : Ending :=
  match parse world.edition arguments with
  | .help scope => ⟨0, Text.lit (help scope), [], [], none, []⟩
  | .faulty scope error => ⟨2, [], complaint scope error, [], none, []⟩
  | .invocation i => runInvocation world i

end SourceJump.CommandLine
