import SourceJump.File.Tree
import SourceJump.Yaml.Document

/-!
# Loading a configuration

A configuration file holds one YAML mapping, which is merged over the defaults. What reads the document is
not part of the program: it is an argument here. A file that does not exist, or that holds nothing, leaves
the defaults. Three sections are checked: the search path has to be a directory or a list of directories,
the language a mapping, and the editor a command or a mapping with one.

A configuration is merged over another one entry by entry. Where both hold a mapping the two are
merged in turn. A null leaves the value below it in place, and anything else replaces it. Keys that
are new come after the others, in their own order.
-/

namespace SourceJump.Config

/-! ### Merging -/

mutual

/-- What a value becomes under an update. -/
def updated (base : Value) : Value → Value
  | .map update =>
    match base with
    | .map entries => .map (merge entries update)
    | _ => .map update
  | .null => base
  | update => update

/-- The entries of `update` over those of `base`. -/
def merge (base : Entries) : List (Value × Value) → Entries
  | [] => base
  | (key, value) :: rest =>
    match Entries.find? base key with
    | some old => merge (Entries.insert base key (updated old value)) rest
    | none => merge (Entries.insert base key value) rest

end

/-! ### Loading -/

/-- The file that is loaded when none is named. -/
def defaultFile : Text :=
  Text.lit ".class-opener.yml"

/-- The configuration without a file. -/
def defaults : Entries :=
  [(.lit "search_path", .list []),
    (.lit "language", .map
      [(.lit "extension", .lit "java"), (.lit "implicit_package", .lit "java.lang")]),
    (.lit "editor", .map [(.lit "command", .null)])]

/-- Why no configuration is loaded. -/
inductive LoadError where
  | file (error : ReadError)
  | yaml (error : Yaml.Error)
  /-- The document is no mapping. -/
  | notMapping (path : Text)
  | searchPathNotRoots (source : Text)
  | languageNotMapping (source : Text)
  | editorNotCommand (source : Text)
  deriving DecidableEq

/-- The outcome of loading, and the path of the file whose mapping was read. -/
structure Loaded where
  file : Option Text
  config : Except LoadError Entries

/-- The search path as a list: a value that counts as false is the empty list, and a text is a list
of one. -/
def normalRoots (v : Value) : Value :=
  if !v.truthy then .list []
  else
    match v with
    | .text t => .list [.text t]
    | v => v

/-- A list of texts. -/
def isTextList : Value → Bool
  | .list items => items.all fun
    | .text _ => true
    | _ => false
  | _ => false

/-- A value that can be the editor section. -/
def isEditor : Value → Bool
  | .null | .text _ | .map _ => true
  | _ => false

/-- Checks the sections of a configuration and makes the search path a list. -/
def checkSections (config : Entries) (source : Text) : Except LoadError Entries :=
  let roots := normalRoots ((Entries.get? config "search_path").getD .null)
  if !isTextList roots then .error (.searchPathNotRoots source)
  else
    match Entries.get? config "language" with
    | some (.map _) =>
      if isEditor ((Entries.get? config "editor").getD .null) then
        .ok (Entries.insert config (.lit "search_path") roots)
      else .error (.editorNotCommand source)
    | _ => .error (.languageNotMapping source)

/-- Reads the mapping of a configuration file; a document that counts as false is the empty one. -/
def readMapping (yaml : Yaml.Loader) (tree : FileTree) (path : Text) : Except LoadError Entries := do
  let text ← (tree.readText path).mapError LoadError.file
  let value ← (yaml text).mapError LoadError.yaml
  if !value.truthy then return []
  match value with
  | .map entries => return entries
  | _ => throw (.notMapping path)

/-- Loads the configuration at a path; no path and the empty one leave the defaults. -/
def load (yaml : Yaml.Loader) (tree : FileTree) (path : Option Text) : Loaded :=
  match path with
  | none | some [] => ⟨none, checkSections defaults []⟩
  | some source =>
    let file := (Path.ofText source).toText
    match tree.reaches file with
    | .error e => ⟨none, .error (.file (.file e))⟩
    | .ok false => ⟨none, checkSections defaults source⟩
    | .ok true =>
      match readMapping yaml tree file with
      | .error e => ⟨none, .error e⟩
      | .ok update => ⟨some file, checkSections (merge defaults update) source⟩

/-- The message for a configuration that cannot be loaded. -/
def LoadError.message : LoadError → String
  | .file error => error.message
  | .yaml error => error.message
  | .notMapping path =>
    let shown := path.toString
    s!"Configuration file {shown} must contain a mapping"
  | .searchPathNotRoots source =>
    let shown := source.toString
    s!"{shown}: search_path must be a directory or a list of directories"
  | .languageNotMapping source =>
    let shown := source.toString
    s!"{shown}: language must be a mapping"
  | .editorNotCommand source =>
    let shown := source.toString
    s!"{shown}: editor must be a command string or a mapping with command"

end SourceJump.Config
