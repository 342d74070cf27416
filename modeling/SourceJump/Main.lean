import SourceJump.CommandLine.Run
import SourceJump.Yaml.Load

/-!
# The program

The outer layer around `CommandLine.run`, which decides everything. This layer supplies what a run
looks at: the environment, the list of users, what reads a document, and those files and directories
that the run asks about. A first run with only the configuration and the source file in view tells
which other files matter; a second run with these in view as well is the one that counts. A lookup
goes on until it finds a readable file, so the second run asks about no file that the first one did
not ask about.

The editor is not started from here: its command is shown on the error output instead.
-/

namespace SourceJump.Main

/-- What stands on disk under a place, if anything does. -/
def readEntry? (place : List Text) : IO (Option FileEntry) := do
  let path := (← IO.currentDir) / Text.toString ('/' :: Text.join ['/'] place)
  if ← path.isDir then return some .directory
  match ← (IO.FS.readBinFile path).toBaseIO with
  | .ok content => return some (.file content.toList)
  | .error (.permissionDenied ..) => return some (.file [] false)
  | .error _ => return none

/-- The places that a walk along a path comes through; two dots lead back. -/
def places (start : List Text) : List Text → List (List Text)
  | [] => []
  | part :: rest =>
    let place := if part = Text.lit ".." then start.dropLast else start ++ [part]
    place :: places place rest

/-- The tree with everything in view that a walk along the path comes through. -/
def addPath (tree : FileTree) (path : Text) : IO FileTree := do
  let p := Path.ofText path
  let start := if p.root.isEmpty then tree.workingDirectory else []
  let found ← (places start p.parts).filterMapM fun place => do
    return (← readEntry? place).map (place, ·)
  return { tree with entries := tree.entries ++ found }

/-- The files that an invocation names. -/
def namedFiles (arguments : List Text) : List Text :=
  match CommandLine.parse .later arguments with
  | .invocation i => i.config.toList ++ [i.file]
  | .help _ | .faulty _ _ => []

/-- The line for a failure that the run does not tell itself. -/
def failureLine : CommandLine.Unforeseen → String
  | .config error => error.message
  | .preferences error => error.message
  | .editor error => error.message
  | .name fault => fault.message
  | .homeUnknown => ExpansionError.homeUnknown.message
  | .positionLost => "no position"
  | .output => "the output has no such character"

/-- The home directory in the list of users: a user has a line, with the name in the first of its fields and the
home directory in the sixth. -/
def listedHome? (users : List Text) (user : Text) : Option Text :=
  users.findSome? fun line =>
    match line.split ':' with
    | name :: fields => if name = user then fields[4]? else none
    | [] => none

/-- The reader of documents. Its depth is what a stack of a thousand calls allows, and values are used from the
members of sections on, which stand on the second level. -/
def yaml : Yaml.Loader := Yaml.load 490 2

/-- What a run finds around the files in view. The output takes all characters, but no halves of one. -/
def worldOf (tree : FileTree) (roots : Option Text) : CommandLine.World where
  tree := tree
  roots := roots
  launch := .exited 0
  yaml := yaml
  room := fun _ _ => true
  prints := fun t => !t.any CodePoint.isHalf
  edition := .later

/-- Runs the program on its arguments; the result is the exit status. -/
def run (arguments : List Text) : IO UInt32 := do
  let roots := (← IO.getEnv "CLASS_OPENER_PATH").map Text.lit
  let home := Text.lit ((← IO.getEnv "HOME").getD "/")
  let users := match ← (IO.FS.lines "/etc/passwd").toBaseIO with
    | .ok lines => lines.toList.map Text.lit
    | .error _ => []
  let homes user := if user.isEmpty then some home else listedHome? users user
  let working := Path.ofText (Text.lit (← IO.currentDir).toString)
  let empty : FileTree := ⟨working.parts.filter isEntryName, homes, [], by simp⟩
  let tree ← (namedFiles arguments).foldlM addPath empty
  let draft := CommandLine.run (worldOf tree roots) arguments
  let tree ← draft.probed.foldlM addPath tree
  let ending := CommandLine.run (worldOf tree roots) arguments
  IO.print ending.out.toString
  IO.eprint ending.err.toString
  for command in ending.launches do
    IO.eprintln (Text.join [' '] command).toString
  match ending.unforeseen with
  | some failure => IO.eprintln (failureLine failure)
  | none => pure ()
  return ending.exit.toUInt32

end SourceJump.Main

/-- The program. -/
def main (arguments : List String) : IO UInt32 :=
  SourceJump.Main.run (arguments.map SourceJump.Text.lit)
