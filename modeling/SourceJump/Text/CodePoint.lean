/-!
# Code points

A text is made of code points. Most are characters; the others, from U+D800 to U+DFFF, are the
halves in which UTF-16 writes a character beyond U+FFFF. A half is no character, but a text can hold
one that was written by its number, alone or beside the other half.

The character classes of Unicode are unions of some hundreds of intervals. A class is stored as the
increasing list of code points at which membership changes: a code point belongs to the class when
an odd number of changes lie at or below it. Bisection finds that number.
-/

namespace SourceJump

/-- A character, or the half of a character with its place among the 2048 of them. -/
inductive CodePoint where
  | char (c : Char)
  | half (place : Fin 0x800)
  deriving DecidableEq, Inhabited, Repr

namespace CodePoint

instance : Coe Char CodePoint := ⟨char⟩

/-- The number of a code point. -/
def toNat : CodePoint → Nat
  | char c => c.toNat
  | half place => 0xd800 + place

/-- The code point with a number up to U+10FFFF. -/
def ofNat (code : Nat) : CodePoint :=
  if h : 0xd800 ≤ code ∧ code < 0xe000 then half ⟨code - 0xd800, by omega⟩
  else char (Char.ofNat code)

/-- Code points are ordered by their numbers. -/
instance : LE CodePoint := ⟨fun a b => a.toNat ≤ b.toNat⟩

instance : DecidableLE CodePoint := fun a b => Nat.decLe a.toNat b.toNat

/-- A half of a character. -/
def isHalf : CodePoint → Bool
  | char _ => false
  | half _ => true

/-- A character with the property; no half has it. -/
def satisfies (p : Char → Bool) : CodePoint → Bool
  | char c => p c
  | half _ => false

/-- A digit 0 to 9. -/
def isDigit (c : CodePoint) : Bool :=
  c.satisfies Char.isDigit

/-- A small letter a to z. -/
def isLower (c : CodePoint) : Bool :=
  c.satisfies Char.isLower

/-- A capital A to Z. -/
def isUpper (c : CodePoint) : Bool :=
  c.satisfies Char.isUpper

/-- A letter a to z or A to Z, or a digit 0 to 9. -/
def isAlphanum (c : CodePoint) : Bool :=
  c.satisfies Char.isAlphanum

/-- A capital A to Z as a small letter, all else as it is. -/
def toLower : CodePoint → CodePoint
  | char c => c.toLower
  | half place => half place

end CodePoint

/-- A set of code points, given by the points, in increasing order, at which membership changes. -/
structure CodePointSet where
  changes : Array Nat

namespace CodePointSet

/-- How many entries of the increasing array lie at or below `c`, known to be between `lo` and `hi`;
`steps` bounds the bisection. -/
def countUpTo (changes : Array Nat) (c : Nat) : (steps lo hi : Nat) → Nat
  | 0, lo, _ => lo
  | steps + 1, lo, hi =>
    if lo < hi then
      let mid := (lo + hi) / 2
      if changes.getD mid 0 ≤ c then countUpTo changes c steps (mid + 1) hi
      else countUpTo changes c steps lo mid
    else lo

/-- Membership; thirty-two halvings suffice for every array of fewer than 2 ^ 32 changes. -/
def contains (s : CodePointSet) (c : CodePoint) : Bool :=
  countUpTo s.changes c.toNat 32 0 s.changes.size % 2 == 1

end CodePointSet

end SourceJump
