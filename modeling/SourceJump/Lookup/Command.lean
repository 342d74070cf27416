import SourceJump.Buffer.Basic
import SourceJump.Java.ClassHeader
import SourceJump.Java.Import
import SourceJump.Lookup.Probe
import SourceJump.Path.Basic

/-!
# Commands

The commands open the source of a class: the one under the cursor, the one that the import line at
the cursor names, the base class of the buffer's own class, or one given by its dotted name.

An unqualified name goes through a fixed chain: an import of the class, the imported packages in the
order of the text, the package that needs no import, a file beside the buffer's own. Every command
starts its searches at the start of the buffer.
-/

namespace SourceJump.Lookup

/-- Where classes are looked for. -/
structure Settings where
  searchPath : List Text
  extension : Text
  /-- The package whose classes need no import; empty means none. -/
  implicitPackage : Option Text

/-- What can be asked for. -/
inductive Command where
  /-- The class with this dotted name. -/
  | resolve (name : Text)
  /-- The class with this name in one of the imported packages. -/
  | inWildcards (name : Text)
  /-- The class whose name is at the offset. -/
  | atCursor (offset : Int)
  /-- The class that the import line at the offset names. -/
  | importAt (offset : Int)
  /-- The base class of the buffer's class. -/
  | baseClass

namespace Settings

/-- The files that may hold the class `fullName`, one below each source root. -/
def candidates (s : Settings) (strategy : Strategy) (className fullName : Text) : List Candidate :=
  s.searchPath.map fun root =>
    ⟨Path.join root (Java.relativePath fullName s.extension), strategy, className, fullName⟩

/-- The stage that looks for a dotted name as it stands. -/
def directStage (s : Settings) (strategy : Strategy) (name : Text) : Stage :=
  ⟨s.candidates strategy name name, [], none⟩

end Settings

/-- The dotted name that an import of the class `name` gives, and the buffer after the search, which
starts at the start. -/
def findImport (b : Buffer) (name : Text) : Option Text × Buffer :=
  let (found, b') := b.rewind.search (Java.singleImport name)
  (found.map (·.groups.headD []), b')

/-- The stage of the class's own import. -/
def importStages (s : Settings) (b : Buffer) (name : Text) : List Stage :=
  match findImport b name with
  | (some fullName, b') =>
    [⟨s.candidates .singleImport name fullName, [.importMissed fullName], some b'.point⟩]
  | (none, _) => []

/-- Tries the packages that the buffer imports from the point on: searches for the next import, looks for
the class in its package, and goes on behind the import. -/
def tryWildcards (s : Settings) (access : FileAccess) (name : Text) (b : Buffer) : Run :=
  match _h : b.search Java.wildcardImport with
  | (none, b') => ⟨[], none, b'.point⟩
  | (some m, b') =>
    let fullName := Java.memberName (m.groups.headD []) name
    let (events, outcome) := probe access (s.candidates .wildcardImport name fullName)
    let attempt : Run := ⟨events, outcome, b'.point⟩
    attempt.orElse fun _ => tryWildcards s access name b'
termination_by b.text.length - b.point
decreasing_by exact Buffer.length_sub_point_search_lt _h Java.readAt_wildcardImport_nil

/-- The stage of the package that needs no import. -/
def implicitStages (s : Settings) (name : Text) : List Stage :=
  match s.implicitPackage with
  | none | some [] => []
  | some package => [⟨s.candidates .implicitPackage name (Java.memberName package name), [], none⟩]

/-- The stage of the file beside the buffer's own. -/
def siblingStages (s : Settings) (b : Buffer) (name : Text) : List Stage :=
  match b.filePath with
  | none | some [] => []
  | some file =>
    let path := Path.join (Path.directory file) (Path.withSuffix name s.extension)
    [⟨[⟨path, .sameDirectory, name, name⟩], [], none⟩]

/-- Runs the chain for an unqualified name. The search for imports of packages starts over at the start. -/
def runChain (s : Settings) (access : FileAccess) (b : Buffer) (name : Text) : Run :=
  let byImport := runStages access b.point (importStages s b name)
  let byPackage := byImport.orElse fun _ => tryWildcards s access name b.rewind
  let last := byPackage.orElse fun point =>
    runStages access point (implicitStages s name ++ siblingStages s b name)
  last.orFail (.undeclared name)

/-- Looks for a dotted name as it stands. -/
def runDirect (s : Settings) (access : FileAccess) (point : Nat) (strategy : Strategy)
    (name : Text) : Run :=
  (runStages access point [s.directStage strategy name]).orFail (.notOnSearchPath name)

/-- Finds the base class of the buffer's class and looks for it: a dotted name as it stands, another
one through the chain. -/
def runBaseClass (s : Settings) (access : FileAccess) (b : Buffer) : Run :=
  match b.filePath with
  | none | some [] => .failed .noFile b.point
  | some file =>
    let own := (Path.ofText file).stem
    match b.rewind.search (Java.classHeader own) with
    | (none, b') => .failed (.noBaseClass own) b'.point
    | (some m, b') =>
      let base := m.groups.headD []
      if base.contains '.' then runDirect s access b'.point .searchPath base
      else runChain s access b' base

/-- Runs a command on a buffer. -/
def run (s : Settings) (access : FileAccess) (b : Buffer) : Command → Run
  | .resolve name => runDirect s access b.point .searchPath name
  | .inWildcards name => tryWildcards s access name b.rewind
  | .atCursor offset =>
    match Buffer.wordAt b.text offset with
    | [] => .failed .noNameAtCursor b.point
    | name => runChain s access b name
  | .importAt offset =>
    let line := Buffer.lineAt b.text offset
    match Java.importLine.matchStart line with
    | none => .failed (.notAnImport line.strip) b.point
    | some m => runDirect s access b.point .singleImport (m.groups.headD [])
  | .baseClass => runBaseClass s access b

end SourceJump.Lookup
