import SourceJump.Text.Basic

/-!
# Outcomes of a lookup

A lookup opens one file or fails for a stated cause. The report of an outcome is the line that the
user reads.
-/

namespace SourceJump.Lookup

/-- Which step of a lookup produced the file. -/
inductive Strategy where
  /-- A dotted name looked up as it is. -/
  | searchPath
  /-- An import of the class. -/
  | singleImport
  /-- An import of the package. -/
  | wildcardImport
  /-- The package whose classes need no import. -/
  | implicitPackage
  /-- A file beside the file of the buffer. -/
  | sameDirectory
  deriving DecidableEq, Repr

/-- A source file that was found and opened. -/
structure Found where
  path : Text
  strategy : Strategy
  /-- The name that was asked for. -/
  className : Text
  deriving DecidableEq

/-- Why a lookup opened nothing. -/
inductive Failure where
  /-- The line is no import of one class. -/
  | notAnImport (line : Text)
  /-- No name touches the cursor. -/
  | noNameAtCursor
  /-- No source root holds the class. -/
  | notOnSearchPath (name : Text)
  /-- No import, no package and no file beside the buffer supplies the class. -/
  | undeclared (name : Text)
  /-- The buffer belongs to no file, so the name of its class is not known. -/
  | noFile
  /-- No header of the class names a base class. -/
  | noBaseClass (name : Text)
  deriving DecidableEq

/-- The kinds of failure that callers tell apart. -/
inductive FailureKind where
  | importNotParsable
  | classNotFound
  | baseClassNotDetermined
  deriving DecidableEq, Repr

/-- The kind of a failure. -/
def Failure.kind : Failure → FailureKind
  | .notAnImport _ => .importNotParsable
  | .noNameAtCursor | .notOnSearchPath _ | .undeclared _ => .classNotFound
  | .noFile | .noBaseClass _ => .baseClassNotDetermined

/-- The words for a failure. -/
def Failure.detail : Failure → Text
  | .notAnImport line => Text.lit "cannot parse import declaration: " ++ line
  | .noNameAtCursor => Text.lit "no class name at cursor"
  | .notOnSearchPath name =>
    Text.lit "no source file for class " ++ name ++ Text.lit " on the search path"
  | .undeclared name => Text.lit "no import declaration found for class " ++ name
  | .noFile => Text.lit "buffer is not visiting a file"
  | .noBaseClass name => Text.lit "no base class found for class " ++ name

/-- What the user is told. -/
inductive Report where
  | opened (found : Found)
  | failed (kind : FailureKind) (detail : Text)
  deriving DecidableEq

/-- The status line of a report. -/
def Report.message : Report → Text
  | .opened found => Text.lit "Opened " ++ found.path
  | .failed _ detail => detail

/-- How a lookup ends. -/
inductive Outcome where
  | opened (found : Found)
  | failed (failure : Failure)
  /-- A file was found, but its path leads to the home directory of an unknown user. -/
  | homeUnknown
  deriving DecidableEq

/-- The report of an outcome that has one. -/
def Outcome.report? : Outcome → Option Report
  | .opened found => some (.opened found)
  | .failed failure => some (.failed failure.kind failure.detail)
  | .homeUnknown => none

end SourceJump.Lookup
