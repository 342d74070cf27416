import SourceJump.CommandLine.Options
import SourceJump.Config.Load

/-!
# Invocations

A command line holds options, the name of a command, and the words of that command. Words that
nothing takes are collected; they are reported only when nothing else is wrong. A request for help
ends the reading at once.
-/

namespace SourceJump.CommandLine

/-- The commands, in the order in which they were introduced. -/
inductive CommandName where
  | atPoint
  | baseClass
  | importAtPoint
  deriving DecidableEq, Repr

namespace CommandName

/-- All commands. -/
def all : List CommandName :=
  [.atPoint, .baseClass, .importAtPoint]

/-- The word for a command. -/
def word : CommandName → Text
  | .atPoint => Text.lit "at-point"
  | .baseClass => Text.lit "base-class"
  | .importAtPoint => Text.lit "import-at-point"

/-- What a command has to be told. -/
def positionals : CommandName → List String
  | .atPoint | .importAtPoint => ["file", "position"]
  | .baseClass => ["file"]

end CommandName

/-- Whose words are read: those of the program or those of a command. -/
abbrev Scope := Option CommandName

/-- The request for help. -/
def helpOption : OptionSpec :=
  ⟨.help, [Text.lit "-h", Text.lit "--help"], false⟩

/-- The options of a scope; a command knows the request for help only. -/
def grammar : Scope → Grammar
  | some _ => [helpOption]
  | none =>
    [helpOption,
      ⟨.config, [Text.lit "--config"], true⟩,
      ⟨.searchPath, [Text.lit "-s", Text.lit "--search-path"], true⟩,
      ⟨.editor, [Text.lit "--editor"], true⟩,
      ⟨.verbose, [Text.lit "-v", Text.lit "--verbose"], false⟩]

/-- What a command line asks for. -/
structure Invocation where
  config : Option Text
  searchPath : List Text
  editor : Option Text
  verbose : Bool
  command : CommandName
  file : Text
  /-- The position, for a command that needs one; two hyphens given for it are lost. -/
  position : Option Text

/-- What a command line turns out to be. -/
inductive Parsed where
  | help (scope : Scope)
  | faulty (scope : Scope) (error : UsageError)
  | invocation (i : Invocation)

/-- Why the reading of words ends early. -/
inductive Stop where
  | help (scope : Scope)
  | faulty (scope : Scope) (error : UsageError)

/-- The words up to the next option, and the rest from it on. -/
def untilOption (words : List Word) : List Word × List Word :=
  let isOption (w : Word) : Bool := match w.kind with
    | .option .. => true
    | _ => false
  (words.takeWhile (! isOption ·), words.dropWhile (! isOption ·))

/-- Takes one positional word, with a separator that stands right before or after it. -/
def takePositional? : List Word → Option (List Text × List Word)
  | ⟨before, .separator⟩ :: ⟨word, .positional⟩ :: rest => some ([before, word], rest)
  | ⟨word, .positional⟩ :: ⟨after, .separator⟩ :: rest => some ([word, after], rest)
  | ⟨word, .positional⟩ :: rest => some ([word], rest)
  | _ => none

/-- Takes positional words, at most `count`: what each of them says once a word that is just two
hyphens is left out, and the words that are left. -/
def takePositionals : (count : Nat) → List Word → List (Option Text) × List Word
  | 0, words => ([], words)
  | count + 1, words =>
    match takePositional? words with
    | none => ([], words)
    | some (taken, rest) =>
      let (others, rest) := takePositionals count rest
      ((taken.erase ['-', '-']).head? :: others, rest)

/-- What the words of a command say: its positional words, and the words that nothing takes. -/
structure CommandWords where
  values : List (Option Text)
  extras : List Text

/-- Reads the words of a command; `wanted` positional words are missing. Every step passes a word.
-/
def readCommandWords (edition : Edition) (command : CommandName) :
    (steps wanted : Nat) → List Word → Except Stop CommandWords
  | 0, _, _ => .ok ⟨[], []⟩
  | _, _, [] => .ok ⟨[], []⟩
  | steps + 1, wanted, ⟨word, .option spec spelling attached⟩ :: rest =>
    match spec with
    | none => do
      let found ← readCommandWords edition command steps wanted rest
      return { found with extras := word :: found.extras }
    | some spec => do
      let used := useOptions edition (grammar (some command)) word.length spec spelling attached rest
      let _ ← used.mapError (Stop.faulty (some command))
      .error (.help (some command))
  | steps + 1, wanted, words => do
    let (run, rest) := untilOption words
    let (values, left) := takePositionals wanted run
    let found ← readCommandWords edition command steps (wanted - values.length) rest
    return ⟨values ++ found.values, left.map (·.text) ++ found.extras⟩

/-- Reads a command and its words. -/
def readCommand (edition : Edition) (command : CommandName) (arguments : List Text) :
    Except Stop CommandWords := do
  let words ← (classifyAll (grammar (some command)) arguments).mapError
    (Stop.faulty (some command))
  let found ← readCommandWords edition command (words.length + 1) command.positionals.length words
  let missing := command.positionals.drop found.values.length
  if missing.isEmpty then return found
  else throw (.faulty (some command) (.missingArguments missing))

/-- The options of the program as far as they were read. -/
structure ProgramOptions where
  config : Option Text
  searchPath : List Text
  editor : Option Text
  verbose : Bool

/-- The options when none is given. -/
def ProgramOptions.initial : ProgramOptions :=
  ⟨some Config.defaultFile, [], none, false⟩

/-- The options after one more use; a source root without value is written as the empty list. -/
def ProgramOptions.apply (o : ProgramOptions) (use : Use) : Except Stop ProgramOptions :=
  match use.flag with
  | .help => .error (.help none)
  | .config => .ok { o with config := use.value }
  | .searchPath => .ok { o with searchPath := o.searchPath ++ [use.value.getD ['[', ']']] }
  | .editor => .ok { o with editor := use.value }
  | .verbose => .ok { o with verbose := true }

/-- Reads the command at the front of the words, which takes all of them. -/
def readInvocation (edition : Edition) (o : ProgramOptions) (extras : List Text)
    (words : List Text) : Except Stop Invocation := do
  match words with
  | [] => throw (.faulty none (.missingArguments ["command"]))
  | word :: arguments =>
    match CommandName.all.find? (·.word = word) with
    | none => throw (.faulty none (.invalidCommand word))
    | some command =>
      let found ← readCommand edition command arguments
      let extras := extras ++ found.extras
      if !extras.isEmpty then throw (.faulty none (.unrecognized extras))
      return {
        config := o.config
        searchPath := o.searchPath
        editor := o.editor
        verbose := o.verbose
        command := command
        file := (found.values.headD none).getD ['-', '-']
        position := (found.values.drop 1).headD none }

/-- Reads the options of the program up to its command. Every step passes a word. -/
def readProgramWords (edition : Edition) : (steps : Nat) → ProgramOptions → (extras : List Text) → List Word →
    Except Stop Invocation
  | 0, o, extras, _ => readInvocation edition o extras []
  | steps + 1, o, extras, words =>
    match words with
    | [] => readInvocation edition o extras []
    | [⟨_, .separator⟩] => readInvocation edition o extras []
    | ⟨word, .option none _ _⟩ :: rest => readProgramWords edition steps o (extras ++ [word]) rest
    | ⟨word, .option (some spec) spelling attached⟩ :: rest => do
      let used ← (useOptions edition (grammar none) word.length spec spelling attached rest).mapError
        (Stop.faulty none)
      readProgramWords edition steps (← used.uses.foldlM ProgramOptions.apply o) (extras ++ used.extras) used.rest
    | words => readInvocation edition o extras (words.map (·.text))

/-- What a command line turns out to be. -/
def parse (edition : Edition) (arguments : List Text) : Parsed :=
  let result := do
    let words ← (classifyAll (grammar none) arguments).mapError (Stop.faulty none)
    readProgramWords edition (words.length + 1) .initial [] words
  match result with
  | .ok i => .invocation i
  | .error (.help scope) => .help scope
  | .error (.faulty scope error) => .faulty scope error

end SourceJump.CommandLine
