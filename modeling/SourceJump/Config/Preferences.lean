import SourceJump.Lookup.Command
import SourceJump.Value.Display

/-!
# What a configuration asks for

From a configuration come the source roots, the extension of source files, the package whose classes
need no import, and the editor. The source roots are ordered: those of the command line go first, then
those of the environment, then those of the configuration. A root that was listed before is not listed
again.
-/

namespace SourceJump.Config

/-! ### The search path -/

/-- The entries of a list with colons between them, blank ones left out. -/
def splitPathList (value : Option Text) : List Text :=
  match value with
  | none | some [] => []
  | some t => (t.split ':').filter fun entry => !entry.strip.isEmpty

/-- The members of a list without the later copies of each. -/
def withoutRepeats (roots : List Text) : List Text :=
  roots.foldl (fun seen root => if seen.contains root then seen else seen ++ [root]) []

/-- The roots of all lists, in order, each once. -/
def mergeRoots (sources : List (List Text)) : List Text :=
  withoutRepeats sources.flatten

/-! ### Preferences -/

/-- What a configuration asks for. -/
structure Preferences where
  searchPath : List Text
  extension : Text
  /-- The package that needs no import, as it was configured, unless that counts as false. -/
  implicitPackage : Option Value

/-- Why a configuration asks for nothing sensible. -/
inductive PreferenceError where
  /-- The source roots are a single value that is no collection. -/
  | rootsNotIterable
  /-- The language section is no mapping. -/
  | languageNotMapping
  /-- An integer that is to be used as text has too many digits to be written. -/
  | integerTooLong
  /-- A value that is to be used as text nests deeper than the stack has room for. -/
  | nestedTooDeeply
  deriving DecidableEq, Repr

/-- What a value is used for as text. -/
inductive Use where
  | root
  | extension
  | editor
  | package
  deriving DecidableEq, Repr

/-- Whether the stack has room for writing a value where it is used. -/
abbrev Room := Use → Value → Bool

/-- A value as text; a text needs no writing. -/
def asText (room : Room) (use : Use) (v : Value) : Except PreferenceError Text :=
  match v with
  | .text t => .ok t
  | v =>
    if room use v then
      match v.display? with
      | some t => .ok t
      | none => .error .integerTooLong
    else .error .nestedTooDeeply

/-- The members of a value that can be run through; a text is a single root. -/
def rootValues? : Value → Option (List Value)
  | .text t => some [.text t]
  | .list items | .set items | .tuple items => some items
  | .map entries => some (entries.map (·.1))
  | .bytes b => some (b.map fun n => .int n.toNat)
  | _ => none

/-- The roots that a configuration lists; a value that counts as false lists none. -/
def configuredRoots (room : Room) (config : Entries) : Except PreferenceError (List Text) :=
  match Entries.get? config "search_path" with
  | none => .ok []
  | some v =>
    if v.truthy then
      match rootValues? v with
      | some roots => roots.mapM (asText room .root)
      | none => .error .rootsNotIterable
    else .ok []

/-- The language section, empty when there is none. -/
def languageSection (config : Entries) : Except PreferenceError Entries :=
  match Entries.get? config "language" with
  | none => .ok []
  | some (.map entries) => .ok entries
  | some _ => .error .languageNotMapping

/-- The preferences of a configuration, given the roots of the command line and the list of roots in
the environment. -/
def Preferences.ofConfig (room : Room) (config : Entries) (commandRoots : List Text)
    (environment : Option Text) : Except PreferenceError Preferences := do
  let roots ← configuredRoots room config
  let language ← languageSection config
  let extension ← asText room .extension ((Entries.get? language "extension").getD (.lit "java"))
  return {
    searchPath := mergeRoots [commandRoots, splitPathList environment, roots]
    extension := extension.dropWhile (· = '.')
    implicitPackage := (Entries.get? language "implicit_package").filter Value.truthy }

/-- The package that needs no import as text, if there is one. -/
def Preferences.package (room : Room) (p : Preferences) : Except PreferenceError (Option Text) :=
  match p.implicitPackage with
  | none => .ok none
  | some v => some <$> asText room .package v

/-- The settings for lookups; a package that is no text is left out. -/
def Preferences.settings (room : Room) (p : Preferences) : Lookup.Settings :=
  ⟨p.searchPath, p.extension, (p.package room).toOption.join⟩

/-- The command line of the editor: the section itself, or its command when it is a mapping. -/
def editorCommand (room : Room) (config : Entries) : Except PreferenceError (Option Text) :=
  let command := match (Entries.get? config "editor").getD .null with
    | .map entries => (Entries.get? entries "command").getD .null
    | v => v
  if command.truthy then some <$> asText room .editor command else .ok none

/-- The words for preferences that make no sense. -/
def PreferenceError.message : PreferenceError → String
  | .rootsNotIterable => "search_path is no list"
  | .languageNotMapping => "language is no mapping"
  | .integerTooLong =>
    let limit := Integer.maxDigits
    s!"Exceeds the limit ({limit} digits) for integer string conversion; " ++
      "use sys.set_int_max_str_digits() to increase the limit"
  | .nestedTooDeeply => "maximum recursion depth exceeded"

end SourceJump.Config
