import SourceJump.Text.Basic

/-!
# Paths

A path is text with components between slashes. `join` and `directory` work on the text as it
stands. `Path` is the normal form: an optional root and the components that name something, empty
ones and single dots left out, double dots kept, because what they lead to depends on the file tree.
-/

namespace SourceJump

/-- A path in normal form. -/
structure Path where
  /-- Nothing, one slash, or exactly two. -/
  root : Text
  parts : List Text
  deriving DecidableEq

namespace Path

/-- The slash between two components. -/
def separator : CodePoint := '/'

/-- The dot before a suffix. -/
def suffixMark : CodePoint := '.'

/-- The path `tail` below `base`; a `tail` that begins with a slash stands alone. -/
def join (base tail : Text) : Text :=
  if tail.head? = some separator then tail
  else if base.isEmpty || base.getLast? = some separator then base ++ tail
  else base ++ separator :: tail

/-- Everything before the last component, trailing slashes left out unless nothing else is there. -/
def directory (p : Text) : Text :=
  let head := (p.reverse.dropWhile (· ≠ separator)).reverse
  if head.all (· = separator) then head else Text.trimEnd (· = separator) head

/-- The root of a path: two slashes keep their own meaning, one or more than two are one. -/
def rootOf (p : Text) : Text :=
  match p.takeWhile (· = separator) with
  | [] => []
  | [_, _] => [separator, separator]
  | _ => [separator]

/-- A component that names something. -/
def isPart (part : Text) : Bool :=
  !part.isEmpty && part ≠ Text.lit "."

/-- The normal form of a path. -/
def ofText (p : Text) : Path :=
  ⟨rootOf p, (p.split separator).filter isPart⟩

/-- The text of a path; the path without root and components is the single dot. -/
def toText (p : Path) : Text :=
  if p.root.isEmpty && p.parts.isEmpty then Text.lit "."
  else p.root ++ Text.join [separator] p.parts

/-- The last component, empty if there is none. -/
def name (p : Path) : Text :=
  p.parts.getLast?.getD []

/-- A component without its suffix: the last dot and what follows it, unless the dot is the first
or the last character. -/
def withoutSuffix (part : Text) : Text :=
  let suffix := part.reverse.takeWhile (· ≠ suffixMark)
  let before := part.take (part.length - suffix.length - 1)
  if suffix.isEmpty || before.isEmpty || suffix.length = part.length then part else before

/-- The path with a dot and `suffix` after it. -/
def withSuffix (p suffix : Text) : Text :=
  p ++ suffixMark :: suffix

/-- The last component without its suffix. -/
def stem (p : Path) : Text :=
  withoutSuffix p.name

/-- The path seen from the directory `base`. -/
def absolute (base p : Path) : Path :=
  if p.root.isEmpty then ⟨base.root, base.parts ++ p.parts⟩ else p

/-- The user whose home directory the first component stands for: the one that is named after a `~`, the
empty name when there is nothing after it. -/
def homeUser? (p : Path) : Option Text :=
  match p.root, p.parts with
  | [], ('~' :: user) :: _ => some user
  | _, _ => none

/-- The path with another one in place of its first component. -/
def below (p base : Path) : Path :=
  ⟨base.root, base.parts ++ p.parts.tail⟩

end Path

end SourceJump
