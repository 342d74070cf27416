import SourceJump.Text.Classes
import SourceJump.Text.Printable

/-!
# Options and positional words

A command line is a row of words. A word that begins with a hyphen is an option, unless it is a
single hyphen, looks like a negative number or holds a space; the first word that is just two
hyphens ends the options. A long option may be shortened to any beginning that no other option
shares, and may have its value after an equals sign. Short options may be written together, the
last one with its value attached. What becomes of an attached value that no option can take depends on
the edition of the rules.
-/

namespace SourceJump.CommandLine

/-- An edition of the rules for values that are attached to an option. -/
inductive Edition where
  /-- Two hyphens attached to an option count as no value, and each of the options that are written
  together has to be known. -/
  | earlier
  /-- An attached value is taken as it is. The first option behind others that is not known is left over with all
  that follows it, unless a hyphen or an equals sign stands there. -/
  | later
  deriving DecidableEq, Repr

/-- What an option stands for. -/
inductive Flag where
  | help
  | config
  | searchPath
  | editor
  | verbose
  deriving DecidableEq, Repr

/-- An option: what it stands for, its spellings, and whether it takes a value. -/
structure OptionSpec where
  flag : Flag
  spellings : List Text
  takesValue : Bool
  deriving DecidableEq

/-- The options of a command, in order. -/
abbrev Grammar := List OptionSpec

/-- A fault of a command line. -/
inductive UsageError where
  | ambiguous (word : Text) (spellings : List Text)
  | expectedArgument (option : OptionSpec)
  | ignoredArgument (option : OptionSpec) (argument : Text)
  | missingArguments (names : List String)
  | invalidCommand (word : Text)
  | unrecognized (words : List Text)
  deriving DecidableEq

/-- What is attached to an option. -/
structure Attached where
  /-- Whether an equals sign stands before it. -/
  marked : Bool
  value : Text

/-- What a word is. -/
inductive WordKind where
  | positional
  /-- The two hyphens that end the options. -/
  | separator
  /-- An option, if it is known, as it is spelled in full, and what is attached to it. -/
  | option (spec : Option OptionSpec) (spelling : Text) (attached : Option Attached)

/-- A word and what it is. -/
structure Word where
  text : Text
  kind : WordKind

namespace Grammar

/-- All spellings, each with its option. -/
def spellings (g : Grammar) : List (Text × OptionSpec) :=
  g.flatMap fun spec => spec.spellings.map (·, spec)

/-- The option with a given spelling. -/
def find? (g : Grammar) (spelling : Text) : Option OptionSpec :=
  (g.spellings.find? (·.1 = spelling)).map (·.2)

/-- The options that a word with two hyphens can be short for, each with its attached value. -/
def longMatches (g : Grammar) (word : Text) : List (OptionSpec × Text × Option Attached) :=
  let (head, attached) : Text × Option Attached := match word.cut? '=' with
    | some (head, value) => (head, some ⟨true, value⟩)
    | none => (word, none)
  (g.spellings.filter fun entry => head.isPrefixOf entry.1).map fun (spelling, spec) =>
    (spec, spelling, attached)

/-- The options that a word with one hyphen can begin with, the rest of the word attached. -/
def shortMatches (g : Grammar) (word : Text) : List (OptionSpec × Text × Option Attached) :=
  g.spellings.filterMap fun (spelling, spec) =>
    if spelling = word.take 2 then some (spec, spelling, some ⟨false, word.drop 2⟩)
    else if word.isPrefixOf spelling then some (spec, spelling, none)
    else none

end Grammar

/-- A digit of any script. -/
def isAnyDigit (c : CodePoint) : Bool :=
  (digitValue? c).isSome

/-- A hyphen and a decimal number, with or without a point; a line feed may follow. -/
def isNegativeNumber (word : Text) : Bool :=
  match word with
  | '-' :: rest =>
    let number := if rest.getLast? = some '\n' then rest.dropLast else rest
    let whole := number.takeWhile isAnyDigit
    match number.dropWhile isAnyDigit with
    | [] => !whole.isEmpty
    | '.' :: fraction => !fraction.isEmpty && fraction.all isAnyDigit
    | _ => false
  | _ => false

/-- The two hyphens before the long name of an option; alone they separate options from words. -/
def longMark : Text := ['-', '-']

/-- What a word is, if no separator came before it. -/
def classify (g : Grammar) (word : Text) : Except UsageError WordKind :=
  if word.head? ≠ some '-' || word.length = 1 then .ok .positional
  else
    match g.find? word, word.cut? '=' with
    | some spec, _ => .ok (.option (some spec) word none)
    | none, cut =>
      match cut.bind fun (head, value) => (g.find? head).map fun spec => (spec, head, value) with
      | some (spec, head, value) => .ok (.option (some spec) head (some ⟨true, value⟩))
      | none =>
        let long := word.take 2 = longMark
        match if long then g.longMatches word else g.shortMatches word with
        | [(spec, spelling, attached)] => .ok (.option (some spec) spelling attached)
        | [] =>
          if isNegativeNumber word || word.contains ' ' then .ok .positional
          else .ok (.option none word none)
        | several => .error (.ambiguous word (several.map (·.2.1)))

/-- The words of a command line and what they are. -/
def classifyAll (g : Grammar) : List Text → Except UsageError (List Word)
  | [] => .ok []
  | word :: rest =>
    if word = longMark then
      .ok (⟨word, .separator⟩ :: rest.map (⟨·, .positional⟩))
    else do
      let kind ← classify g word
      return ⟨word, kind⟩ :: (← classifyAll g rest)

/-- An option as it was used, with its value if it takes one. -/
structure Use where
  flag : Flag
  value : Option Text
  deriving DecidableEq

/-- What one word comes to: the options that it uses, what is left over of it, and the words after it and after the
value that it takes. -/
structure Used where
  uses : List Use
  extras : List Text
  rest : List Word

namespace Edition

/-- An attached value as it is used. -/
def valueOf? (edition : Edition) (value : Text) : Option Text :=
  if edition = .earlier ∧ value = longMark then none else some value

/-- Whether what is attached cannot begin with another option. -/
def endsOptions (edition : Edition) (marked : Bool) (first : CodePoint) : Bool :=
  edition = .later && (marked || first = '-')

/-- What is attached to a short option by the characters behind it. -/
def attachedBehind? (edition : Edition) : Text → Option Attached
  | [] => none
  | first :: rest => some (if edition = .later && first = '=' then ⟨true, rest⟩ else ⟨false, first :: rest⟩)

end Edition

/-- Reads the options of one word. `steps` bounds the number of short options written together. -/
def useOptions (edition : Edition) (g : Grammar) (steps : Nat) (spec : OptionSpec) (spelling : Text)
    (attached : Option Attached) (rest : List Word) : Except UsageError Used :=
  match attached with
  | some ⟨marked, value⟩ =>
    if spec.takesValue then .ok ⟨[⟨spec.flag, edition.valueOf? value⟩], [], rest⟩
    else
      match steps, value with
      | steps + 1, first :: others =>
        if spelling.take 2 = longMark || edition.endsOptions marked first then .error (.ignoredArgument spec value)
        else
          match g.find? ['-', first], edition with
          | none, .earlier => .error (.ignoredArgument spec value)
          | none, .later => .ok ⟨[⟨spec.flag, none⟩], ['-' :: value], rest⟩
          | some next, edition => do
            let used ← useOptions edition g steps next ['-', first] (edition.attachedBehind? others) rest
            return { used with uses := ⟨spec.flag, none⟩ :: used.uses }
      | _, _ => .error (.ignoredArgument spec value)
  | none =>
    if spec.takesValue then
      match rest with
      | ⟨value, .positional⟩ :: rest => .ok ⟨[⟨spec.flag, some value⟩], [], rest⟩
      | _ => .error (.expectedArgument spec)
    else .ok ⟨[⟨spec.flag, none⟩], [], rest⟩

/-- The spellings of an option with slashes between them. -/
def OptionSpec.title (spec : OptionSpec) : Text :=
  Text.join ['/'] spec.spellings

/-- The words for a fault. -/
def UsageError.message (commands : List Text) : UsageError → Text
  | .ambiguous word spellings =>
    Text.lit "ambiguous option: " ++ word ++ Text.lit " could match " ++
      Text.join (Text.lit ", ") spellings
  | .expectedArgument option =>
    Text.lit "argument " ++ option.title ++ Text.lit ": expected one argument"
  | .ignoredArgument option argument =>
    Text.lit "argument " ++ option.title ++ Text.lit ": ignored explicit argument " ++
      argument.quote
  | .missingArguments names =>
    Text.lit "the following arguments are required: " ++
      Text.join (Text.lit ", ") (names.map Text.lit)
  | .invalidCommand word =>
    Text.lit "argument command: invalid choice: " ++ word.quote ++ Text.lit " (choose from " ++
      Text.join (Text.lit ", ") (commands.map Text.quote) ++ Text.lit ")"
  | .unrecognized words => Text.lit "unrecognized arguments: " ++ Text.join [' '] words

end SourceJump.CommandLine
