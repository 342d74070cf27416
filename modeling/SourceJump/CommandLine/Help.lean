import SourceJump.CommandLine.Invocation

/-!
# Usage and help

The usage of the program and of its commands, as it stands above the help and before every complaint
about a command line, and the help itself.
-/

namespace SourceJump.CommandLine

/-- The name under which a scope complains. -/
def programName : Scope → String
  | none => "class-opener"
  | some command =>
    let word := command.word.toString
    s!"class-opener {word}"

/-- The usage of a scope. -/
def usage : Scope → String
  | none =>
    "usage: class-opener [-h] [--config CONFIG] [-s DIR] [--editor EDITOR] [-v]\n" ++
    "                    \x7bat-point,base-class,import-at-point\x7d ...\n"
  | some command =>
    let name := programName (some command)
    let words := " ".intercalate command.positionals
    s!"usage: {name} [-h] {words}\n"

/-- What the help tells of a positional word. -/
def positionalHelp : String → String
  | "file" => "Java file being edited"
  | _ => "Cursor as OFFSET or LINE:COLUMN"

/-- A name with spaces up to the column of the explanations. -/
def padName (name : String) : String :=
  name ++ String.ofList (List.replicate (12 - name.length) ' ')

/-- The help for the program. -/
def programHelp : String :=
  "\n" ++
  "Open the source file of a class referenced in a Java file.\n" ++
  "\n" ++
  "positional arguments:\n" ++
  "  \x7bat-point,base-class,import-at-point\x7d\n" ++
  "    at-point            Open the class named under the cursor\n" ++
  "    base-class          Open the superclass of the file's class\n" ++
  "    import-at-point     Open the class named by the import on the cursor line\n" ++
  "\n" ++
  "options:\n" ++
  "  -h, --help            show this help message and exit\n" ++
  "  --config CONFIG       Path to configuration file (default: .class-\n" ++
  "                        opener.yml)\n" ++
  "  -s DIR, --search-path DIR\n" ++
  "                        Source root to search; repeat to add more, earlier\n" ++
  "                        wins\n" ++
  "  --editor EDITOR       Command used to open the resolved file, e.g. 'code -g'\n" ++
  "  -v, --verbose         Enable verbose (debug) output\n"

/-- The help for a command. -/
def commandHelp (command : CommandName) : String :=
  let positionals := command.positionals.map fun name =>
    "  " ++ padName name ++ positionalHelp name ++ "\n"
  "\npositional arguments:\n" ++ String.join positionals ++
    "\noptions:\n  -h, --help  show this help message and exit\n"

/-- The help for a scope. -/
def help (scope : Scope) : String :=
  usage scope ++
    match scope with
    | none => programHelp
    | some command => commandHelp command

/-- The complaint about a command line. -/
def complaint (scope : Scope) (error : UsageError) : Text :=
  let message := error.message (CommandName.all.map CommandName.word)
  Text.lit (usage scope ++ programName scope ++ ": error: ") ++ message ++ Text.lit "\n"

end SourceJump.CommandLine
