import SourceJump.File.Name
import SourceJump.Path.Basic

/-!
# File trees

A file tree is a set of files and directories under absolute paths, with a working directory and the home
directories of the users. Looking a path up walks its components from the root or the working directory:
every component but the last must lead to a directory that may be searched, and so must the last one when
a slash follows it. Neither a component nor a whole path may have too many bytes. A file is read as UTF-8
with its line ends unified; a byte order mark stays in the text.
-/

namespace SourceJump

/-- What stands under a path, and whether the program has leave to use it. -/
inductive FileEntry where
  | file (content : Bytes) (readable : Bool := true)
  | directory (searchable : Bool := true)

/-- Why a path leads to no readable file. -/
inductive FileError where
  | notFound (path : Text)
  | isDirectory (path : Text)
  | notDirectory (path : Text)
  | accessDenied (path : Text)
  /-- A component, or the path as a whole, has too many bytes. -/
  | nameTooLong (path : Text)
  /-- The path cannot be passed to the system. -/
  | name (fault : NameFault)
  deriving DecidableEq

/-- Why a path has no absolute form. -/
inductive ExpansionError where
  /-- It begins with the home directory of someone who is not known. -/
  | homeUnknown
  /-- It begins with the home directory of someone whose name cannot be passed to the system. -/
  | name (fault : NameFault)
  deriving DecidableEq

/-- The greatest number of bytes of a component. -/
def maxNameBytes : Nat := 255

/-- The greatest number of bytes of a path. -/
def maxPathBytes : Nat := 4095

/-- A name under which something can stand: a path that holds it as a component means nothing but
this name. -/
def isEntryName (name : Text) : Bool :=
  Path.isPart name && name ≠ Text.lit ".." &&
    name.all (fun c => c ≠ Path.separator && c ≠ '\x00' && !c.isHalf) &&
    ((nameBytes? name).getD []).length ≤ maxNameBytes

/-- Files and directories, each under its components from the root. The directories above an entry,
the working directory and those above it exist without being listed, and may be searched. -/
structure FileTree where
  workingDirectory : List Text
  /-- The home directory of a user, as it is known to the system; the empty name stands for the user who
  runs the program. -/
  homes : Text → Option Text
  entries : List (List Text × FileEntry)
  /-- The working directory stands in the tree under its components. -/
  workingDirectory_valid : workingDirectory.all isEntryName = true := by with_unfolding_all decide

namespace FileTree

/-- What stands under the components, if anything does. -/
def entryAt? (tree : FileTree) (parts : List Text) : Option FileEntry :=
  if parts.isPrefixOf tree.workingDirectory then some .directory
  else
    match tree.entries.find? (·.1 = parts) with
    | some (_, entry) => some entry
    | none => if tree.entries.any (parts.isPrefixOf ·.1) then some .directory else none

/-- Enters one component from a place: the place reached and what stands there. The path is the one that an
error names. -/
def enter (tree : FileTree) (path : Text) (place : List Text) (entry : FileEntry) (part : Text) :
    Except FileError (List Text × FileEntry) :=
  match entry with
  | .file _ _ => .error (.notDirectory path)
  | .directory searchable =>
    if !Path.isPart part then .ok (place, entry)
    else if !searchable then .error (.accessDenied path)
    else if part = Text.lit ".." then .ok (place.dropLast, .directory)
    else if maxNameBytes < ((nameBytes? part).getD []).length then .error (.nameTooLong path)
    else
      match plainName? part with
      | none => .error (.notFound path)
      | some name =>
        match tree.entryAt? (place ++ [name]) with
        | some entry => .ok (place ++ [name], entry)
        | none => .error (.notFound path)

/-- Walks components from a place. -/
def walk (tree : FileTree) (path : Text) (place : List Text) (entry : FileEntry) :
    List Text → Except FileError (List Text × FileEntry)
  | [] => .ok (place, entry)
  | part :: rest =>
    match tree.enter path place entry part with
    | .ok (place, entry) => walk tree path place entry rest
    | .error e => .error e

/-- The place that a path leads to, and what stands there. -/
def locate (tree : FileTree) (path : Text) : Except FileError (List Text × FileEntry) :=
  match nameFault? path with
  | some fault => .error (.name fault)
  | none =>
    let bytes := (nameBytes? path).getD []
    if bytes.isEmpty then .error (.notFound path)
    else if maxPathBytes < bytes.length then .error (.nameTooLong path)
    else
      let start := if path.head? = some Path.separator then [] else tree.workingDirectory
      tree.walk path start .directory (path.split Path.separator)

/-- What a path leads to. -/
def lookup (tree : FileTree) (path : Text) : Except FileError FileEntry :=
  (tree.locate path).map (·.2)

/-- Whether the path leads to a file that may be read. -/
def isReadable (tree : FileTree) (path : Text) : Bool :=
  match tree.lookup path with
  | .ok (.file _ readable) => readable
  | _ => false

/-- Whether the path leads to anything. A path that is too long, or that leads through a directory that may
not be searched, leaves the question open. -/
def reaches (tree : FileTree) (path : Text) : Except FileError Bool :=
  match tree.lookup path with
  | .ok _ => .ok true
  | .error (.nameTooLong path) => .error (.nameTooLong path)
  | .error (.accessDenied path) => .error (.accessDenied path)
  | .error _ => .ok false

/-- The content of the file that a path leads to. -/
def read (tree : FileTree) (path : Text) : Except FileError Bytes :=
  match tree.lookup path with
  | .ok (.file content readable) => if readable then .ok content else .error (.accessDenied path)
  | .ok (.directory _) => .error (.isDirectory path)
  | .error e => .error e

/-- The working directory as a path. -/
def workingPath (tree : FileTree) : Path :=
  ⟨[Path.separator], tree.workingDirectory⟩

/-- The home directory of a user. Slashes at its end are left out, and one that begins with `~` is none. -/
def home? (tree : FileTree) (user : Text) : Option Path :=
  match (tree.homes user).map (Text.trimEnd (· = Path.separator)) with
  | none => none
  | some [] => some ⟨[Path.separator], []⟩
  | some home => if home.head? = some '~' then none else some (Path.ofText home)

/-- The absolute form of a path, a first component `~user` standing for the home directory of that user. -/
def expand (tree : FileTree) (path : Text) : Except ExpansionError Text :=
  let p := Path.ofText path
  match p.homeUser? with
  | none => .ok (tree.workingPath.absolute p).toText
  | some user =>
    match nameFault? user with
    | some fault => .error (.name fault)
    | none =>
      match tree.home? user with
      | none => .error .homeUnknown
      | some home => .ok (tree.workingPath.absolute (p.below home)).toText

/-- The absolute form of a path, if it has one. -/
def absolute? (tree : FileTree) (path : Text) : Option Text :=
  (tree.expand path).toOption

end FileTree

/-! ### Reading text -/

/-- Why a file yields no text. -/
inductive ReadError where
  | file (error : FileError)
  | encoding (fault : Utf8.Fault)
  deriving DecidableEq

/-- The text of the file that a path leads to. -/
def FileTree.readText (tree : FileTree) (path : Text) : Except ReadError Text :=
  match tree.read path with
  | .error e => .error (.file e)
  | .ok content =>
    match Utf8.decode content with
    | .error fault => .error (.encoding fault)
    | .ok t => .ok t.unifyNewlines

/-- The message for a path that leads to no readable file. -/
def FileError.message : FileError → String
  | .notFound path =>
    let shown := path.quote.toString
    s!"[Errno 2] No such file or directory: {shown}"
  | .accessDenied path =>
    let shown := path.quote.toString
    s!"[Errno 13] Permission denied: {shown}"
  | .isDirectory path =>
    let shown := path.quote.toString
    s!"[Errno 21] Is a directory: {shown}"
  | .notDirectory path =>
    let shown := path.quote.toString
    s!"[Errno 20] Not a directory: {shown}"
  | .nameTooLong path =>
    let shown := path.quote.toString
    s!"[Errno 36] File name too long: {shown}"
  | .name fault => fault.message

/-- The message for a path without absolute form. -/
def ExpansionError.message : ExpansionError → String
  | .homeUnknown => "Could not determine home directory."
  | .name fault => fault.message

/-- The message for a file that yields no text. -/
def ReadError.message : ReadError → String
  | .file error => error.message
  | .encoding fault => fault.message

end SourceJump
