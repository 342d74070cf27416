import SourceJump.File.Tree
import SourceJump.Value.Display

/-!
# Launching the editor

A command given as one text is cut into words as a shell does it: spaces, tabulators and line ends
separate words; apostrophes quote everything up to the next one; double quotes quote everything but
a backslash that stands before a backslash or a double quote; elsewhere a backslash quotes the next
character. Quotes around nothing make an empty word.

Opening a file hands it to the editor, when there is one: the words of the editor's command with the
path of the file as one more word. The launch succeeds, ends with a status other than zero, is ended
by a signal, or finds no such program. It fails before any program is looked for when a word cannot
be passed to one.
-/

namespace SourceJump

/-! ### The words of a command -/

namespace ShellWords

/-- Why a text has no words. -/
inductive Error where
  | openQuotation
  | openEscape
  deriving DecidableEq, Repr

/-- Where the reading stands within the text. -/
inductive State where
  /-- Between words. -/
  | between
  /-- Within a word, outside quotation. -/
  | within
  /-- Within quotation, up to the mark. -/
  | quoted (mark : CodePoint)
  /-- After a backslash outside quotation. -/
  | escaped
  /-- After a backslash within double quotes. -/
  | quotedEscape
  deriving DecidableEq, Repr

/-- A character that separates words. -/
def isSeparator (c : CodePoint) : Bool :=
  c == ' ' || c == '\t' || c == '\r' || c == '\n'

/-- The state after the character `c` outside quotation and escapes, if `c` is no part of a word. -/
def special? (c : CodePoint) : Option State :=
  if c = '\\' then some .escaped
  else if c = '\'' || c = '"' then some (.quoted c)
  else none

/-- Reads on with `word` as the word so far, its last character first. -/
def readFrom : State → (word : Text) → Text → Except Error (List Text)
  | .between, _, [] => .ok []
  | .within, word, [] => .ok [word.reverse]
  | .quoted _, _, [] => .error .openQuotation
  | .escaped, _, [] => .error .openEscape
  | .quotedEscape, _, [] => .error .openEscape
  | .between, _, c :: rest =>
    if isSeparator c then readFrom .between [] rest
    else
      match special? c with
      | some state => readFrom state [] rest
      | none => readFrom .within [c] rest
  | .within, word, c :: rest =>
    if isSeparator c then (readFrom .between [] rest).map (word.reverse :: ·)
    else
      match special? c with
      | some state => readFrom state word rest
      | none => readFrom .within (c :: word) rest
  | .quoted mark, word, c :: rest =>
    if c = mark then readFrom .within word rest
    else if mark = '"' && c = '\\' then readFrom .quotedEscape word rest
    else readFrom (.quoted mark) (c :: word) rest
  | .escaped, word, c :: rest => readFrom .within (c :: word) rest
  | .quotedEscape, word, c :: rest =>
    if c = '\\' || c = '"' then readFrom (.quoted '"') (c :: word) rest
    else readFrom (.quoted '"') (c :: '\\' :: word) rest

/-- The words of a command. -/
def read (command : Text) : Except Error (List Text) :=
  readFrom .between [] command

/-- The message for a text without words. -/
def Error.message : Error → String
  | .openQuotation => "No closing quotation"
  | .openEscape => "No escaped character"

end ShellWords

/-! ### Launches -/

namespace Editor

/-- What a launch does. -/
inductive Outcome where
  /-- The program ends with this status; a negative one is the signal that ended it. -/
  | exited (status : Int)
  /-- There is no such program. -/
  | missing
  deriving DecidableEq, Repr

/-- Why a launch fails. -/
inductive LaunchError where
  | failed (command : List Text) (status : Int)
  | notFound (program : Text)
  /-- A word of the command cannot be passed to a program. -/
  | name (fault : NameFault)
  deriving DecidableEq

/-- The words of an editor given as one text; no text and the empty text mean no editor. -/
def words (editor : Option Text) : Except ShellWords.Error (List Text) :=
  match editor with
  | none | some [] => .ok []
  | some command => ShellWords.read command

/-- The command that opens the file, if there is an editor. -/
def commandFor? (editor : List Text) (path : Text) : Option (List Text) :=
  if editor.isEmpty then none else some (editor ++ [path])

/-- The result of launching a command. -/
def launch (outcome : Outcome) (command : List Text) : Except LaunchError Unit :=
  match command.findSome? nameFault? with
  | some fault => .error (.name fault)
  | none =>
    match outcome with
    | .missing => .error (.notFound (command.headD []))
    | .exited status => if status = 0 then .ok () else .error (.failed command status)

/-- The names of the signals 1 to 31. -/
def signalNames : List String :=
  ["HUP", "INT", "QUIT", "ILL", "TRAP", "ABRT", "BUS", "FPE", "KILL", "USR1", "SEGV", "USR2",
    "PIPE", "ALRM", "TERM", "STKFLT", "CHLD", "CONT", "STOP", "TSTP", "TTIN", "TTOU", "URG",
    "XCPU", "XFSZ", "VTALRM", "PROF", "WINCH", "IO", "PWR", "SYS"]

/-- The name of a signal; of the numbers beyond 31 only the first and the last real-time signal have
one. -/
def signalName? (number : Nat) : Option String :=
  if number = 34 then some "RTMIN" else if number = 64 then some "RTMAX"
  else if number = 0 then none else signalNames[number - 1]?

/-- The message for a launch that fails. -/
def LaunchError.message : LaunchError → String
  | .notFound program => (FileError.notFound program).message
  | .failed command status =>
    let shown := (Value.list (command.map .text)).written.toString
    if status < 0 then
      let number := status.natAbs
      match signalName? number with
      | some signal => s!"Command '{shown}' died with <Signals.SIG{signal}: {number}>."
      | none => s!"Command '{shown}' died with unknown signal {number}."
    else s!"Command '{shown}' returned non-zero exit status {status}."
  | .name fault => fault.message

end Editor

end SourceJump
