import SourceJump.File.Tree
import SourceJump.Lookup.Outcome

/-!
# Probing candidates

A lookup is a list of stages, each a list of candidate files. Candidates are probed one after the
other; the first readable one is opened and ends the lookup. The events of a lookup record, in
order, everything that it asks of the file system and everything that it has to tell on the way.
-/

namespace SourceJump.Lookup

/-- A file that may hold the class. -/
structure Candidate where
  path : Text
  strategy : Strategy
  /-- The name that was asked for. -/
  className : Text
  /-- The name under which the file is looked up. -/
  lookedUp : Text
  deriving DecidableEq

/-- What happens during a lookup. -/
inductive Event where
  /-- The file system is asked whether the path is a readable file. -/
  | probed (path : Text)
  /-- No file was found for the name that an import declares. -/
  | importMissed (name : Text)
  /-- The file system is asked for the absolute form of the path. -/
  | madeAbsolute (path : Text)
  /-- The file is opened, as the source of the name. -/
  | opened (path name : Text)
  deriving DecidableEq

/-- What a lookup needs to know of the file system. -/
structure FileAccess where
  readable : Text → Bool
  /-- The absolute form of a path, unless it needs the home directory of an unknown user. -/
  absolute? : Text → Option Text

/-- What a lookup knows of a file tree. -/
def FileAccess.ofTree (tree : FileTree) : FileAccess :=
  ⟨tree.isReadable, tree.absolute?⟩

/-- One step of a lookup. -/
structure Stage where
  candidates : List Candidate
  /-- What there is to tell when no candidate is readable. -/
  whenMissed : List Event
  /-- Where the search for the candidates leaves the point of the buffer, if it moves it. -/
  point : Option Nat

/-- How far a lookup came: its events, its outcome if there is one, and the point of the buffer. -/
structure Run where
  events : List Event
  outcome : Option Outcome
  point : Nat

/-- Opens a candidate that was found readable. A file beside the buffer is opened by its absolute
path. -/
def Candidate.select (access : FileAccess) (c : Candidate) : List Event × Outcome :=
  if c.strategy = .sameDirectory then
    match access.absolute? c.path with
    | some path =>
      ([.madeAbsolute c.path, .opened path c.lookedUp], .opened ⟨path, c.strategy, c.className⟩)
    | none => ([.madeAbsolute c.path], .homeUnknown)
  else ([.opened c.path c.lookedUp], .opened ⟨c.path, c.strategy, c.className⟩)

/-- Probes candidates up to the first readable one and opens that. -/
def probe (access : FileAccess) : List Candidate → List Event × Option Outcome
  | [] => ([], none)
  | c :: rest =>
    if access.readable c.path then
      let (events, outcome) := c.select access
      (.probed c.path :: events, some outcome)
    else
      let (events, outcome) := probe access rest
      (.probed c.path :: events, outcome)

/-- Runs stages up to the first one with a readable candidate. -/
def runStages (access : FileAccess) (point : Nat) : List Stage → Run
  | [] => ⟨[], none, point⟩
  | stage :: rest =>
    let point := stage.point.getD point
    match probe access stage.candidates with
    | (events, some outcome) => ⟨events, some outcome, point⟩
    | (events, none) =>
      let run := runStages access point rest
      { run with events := events ++ stage.whenMissed ++ run.events }

/-- The run that goes on from where it left the point, unless it has come to an outcome. -/
def Run.orElse (run : Run) (next : Nat → Run) : Run :=
  match run.outcome with
  | some _ => run
  | none =>
    let later := next run.point
    { later with events := run.events ++ later.events }

/-- The run with the failure as its outcome when nothing was found. -/
def Run.orFail (run : Run) (failure : Failure) : Run :=
  { run with outcome := some (run.outcome.getD (.failed failure)) }

/-- The run that fails without a look at the file system. -/
def Run.failed (failure : Failure) (point : Nat) : Run :=
  ⟨[], some (.failed failure), point⟩

end SourceJump.Lookup
