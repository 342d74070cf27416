import SourceJump.Buffer.Pattern

/-!
# Buffers

A buffer is a text, the path of the file it came from, if any, and a point from which searches
start. Offsets that come from outside are integers; whatever they are, they are first moved into
the text.
-/

namespace SourceJump

/-- A text under inspection. -/
structure Buffer where
  text : Text
  filePath : Option Text
  point : Nat

namespace Buffer

/-- A buffer with its point at the start. -/
def ofText (text : Text) (filePath : Option Text) : Buffer :=
  ⟨text, filePath, 0⟩

/-- The offset of the text that is nearest to `offset`. -/
def clamp (text : Text) (offset : Int) : Nat :=
  min offset.toNat text.length

/-- The name under the cursor: the longest run of name characters that touches the offset on either
side; empty when none does. -/
def wordAt (text : Text) (offset : Int) : Text :=
  let o := clamp text offset
  Text.lastRun isNameChar (text.take o) ++ (text.drop o).takeWhile isNameChar

/-- The line that holds the offset, without its line feed and without carriage returns at its
end. -/
def lineAt (text : Text) (offset : Int) : Text :=
  let o := clamp text offset
  let inLine (c : CodePoint) : Bool := c ≠ '\n'
  let line := Text.lastRun inLine (text.take o) ++ (text.drop o).takeWhile inLine
  line.trimEnd (· = '\r')

/-- The place that an index names: a negative one counts from the end. -/
def place (text : Text) (index : Int) : Nat :=
  if index < 0 then (index + text.length).toNat else min index.toNat text.length

/-- The text between two places; empty when the second is not after the first. -/
def slice (text : Text) (start stop : Int) : Text :=
  (text.take (place text stop)).drop (place text start)

/-- The buffer with its point at the start. -/
def rewind (b : Buffer) : Buffer :=
  { b with point := 0 }

/-- Searches from the point. A match moves the point to its end, and at least by one, so that the
search can go on from there. -/
def search (b : Buffer) (p : Pattern) : Option Match × Buffer :=
  match p.search b.text b.point with
  | none => (none, b)
  | some m => (some m, { b with point := max m.stop (b.point + 1) })

/-- A find brings the point nearer to the end of the text, when the end itself cannot be read. -/
theorem length_sub_point_search_lt {b b' : Buffer} {p : Pattern} {m : Match} (h : b.search p = (some m, b'))
    (hend : ∀ before, p.readAt before [] = none) : b'.text.length - b'.point < b.text.length - b.point := by
  rw [search] at h
  split at h
  · cases h
  · next hfind =>
    cases h
    have hinside : b.point < b.text.length := by
      refine Nat.lt_of_not_le fun hbeyond => ?_
      simp [Pattern.search, Nat.min_eq_right hbeyond, Pattern.findFrom, hend] at hfind
    show b.text.length - max m.stop (b.point + 1) < b.text.length - b.point
    omega

end Buffer

end SourceJump
