import SourceJump.Lookup.Command

/-!
# Sessions

A session is a row of actions with the same settings. Between its commands and searches files come
and go, and another buffer takes the place of the current one. A command or a search changes nothing
of the session but the point of the buffer.
-/

namespace SourceJump.Lookup

/-- The access after a file has come. -/
def FileAccess.adding (access : FileAccess) (path : Text) : FileAccess :=
  { access with readable := fun p => p = path || access.readable p }

/-- The access after a file has gone. -/
def FileAccess.removing (access : FileAccess) (path : Text) : FileAccess :=
  { access with readable := fun p => p ≠ path && access.readable p }

/-- The settings, the files and the current buffer. -/
structure Session where
  settings : Settings
  access : FileAccess
  buffer : Buffer

/-- What can happen in a session. -/
inductive Action where
  /-- A lookup. -/
  | command (c : Command)
  /-- The search for the import of a class. -/
  | findImport (name : Text)
  /-- A search from the point. -/
  | search (p : Pattern)
  | addFile (path : Text)
  | removeFile (path : Text)
  /-- Another buffer becomes the current one. -/
  | visit (b : Buffer)

/-- What an action yields. -/
inductive Answer where
  | outcome (result : Option Outcome)
  | name (found : Option Text)
  | place (found : Option Match)
  | done

/-- What an action asks of the file system, what it yields, and the session after it. -/
structure Step where
  events : List Event
  answer : Answer
  session : Session

namespace Session

/-- The session with the point of the buffer moved. -/
def withPoint (s : Session) (point : Nat) : Session :=
  { s with buffer := { s.buffer with point := point } }

/-- Performs one action. -/
def step (s : Session) : Action → Step
  | .command c =>
    let run := Lookup.run s.settings s.access s.buffer c
    ⟨run.events, .outcome run.outcome, s.withPoint run.point⟩
  | .findImport name =>
    let (found, buffer) := Lookup.findImport s.buffer name
    ⟨[], .name found, { s with buffer := buffer }⟩
  | .search p =>
    let (found, buffer) := s.buffer.search p
    ⟨[], .place found, { s with buffer := buffer }⟩
  | .addFile path => ⟨[], .done, { s with access := s.access.adding path }⟩
  | .removeFile path => ⟨[], .done, { s with access := s.access.removing path }⟩
  | .visit buffer => ⟨[], .done, { s with buffer := buffer }⟩

/-- Performs actions one after the other. -/
def run (s : Session) : List Action → List Step
  | [] => []
  | action :: rest =>
    let first := s.step action
    first :: first.session.run rest

end Session

end SourceJump.Lookup
