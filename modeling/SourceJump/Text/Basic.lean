import SourceJump.Text.CodePoint

/-!
# Text

Source text, names and paths are lists of code points, so that every offset, length and span counts
code points and recursion on a text is recursion on a list. This module holds the cuts that the
other modules share: splitting at a character or at line ends, joining, trimming and taking a literal
off the front. Files are read with one kind of line end: a carriage return, alone or before a line
feed, becomes a line feed.
-/

namespace SourceJump

/-- A text: its code points, first to last. -/
abbrev Text := List CodePoint

namespace Text

/-- The pieces between the occurrences of `sep`, empty ones included; never the empty list. -/
def split (sep : CodePoint) : Text → List Text
  | [] => [[]]
  | c :: rest =>
    if c = sep then [] :: split sep rest
    else
      match split sep rest with
      | [] => [[c]]
      | piece :: pieces => (c :: piece) :: pieces

/-- The pieces written one after the other with `sep` between neighbours. -/
def join (sep : Text) : List Text → Text
  | [] => []
  | [piece] => piece
  | piece :: pieces => piece ++ sep ++ join sep pieces

/-- Every line end written as one line feed. -/
def unifyNewlines : Text → Text
  | [] => []
  | '\r' :: '\n' :: rest => '\n' :: unifyNewlines rest
  | '\r' :: rest => '\n' :: unifyNewlines rest
  | c :: rest => c :: unifyNewlines rest

/-- The lines of a text: what stands between its line feeds. -/
def lines (t : Text) : List Text :=
  t.split '\n'

/-- What stands before the first `sep` and what stands after it, if there is one. -/
def cut? (sep : CodePoint) (t : Text) : Option (Text × Text) :=
  match t.dropWhile (· ≠ sep) with
  | [] => none
  | _ :: rest => some (t.takeWhile (· ≠ sep), rest)

/-- The text after the literal `word`, if the text begins with it. -/
def after? : (word t : Text) → Option Text
  | [], t => some t
  | _ :: _, [] => none
  | c :: word, d :: t => if c = d then after? word t else none

/-- The text without the longest tail of characters that satisfy `p`. -/
def trimEnd (p : CodePoint → Bool) (t : Text) : Text :=
  (t.reverse.dropWhile p).reverse

/-- The text without the longest head and the longest tail of characters that satisfy `p`. -/
def trim (p : CodePoint → Bool) (t : Text) : Text :=
  trimEnd p (t.dropWhile p)

/-- The longest tail of characters that satisfy `p`. -/
def lastRun (p : CodePoint → Bool) (t : Text) : Text :=
  (t.reverse.takeWhile p).reverse

/-- Letters of the basic Latin alphabet in lower case, all else as it is. -/
def lowerLatin (t : Text) : Text :=
  t.map CodePoint.toLower

/-- The code points of a literal. -/
abbrev lit (s : String) : Text :=
  s.toList.map CodePoint.char

/-- The text as one string; a half, which no string can hold, is shown as U+FFFD. -/
def toString (t : Text) : String :=
  String.ofList <| t.map fun
    | .char c => c
    | .half _ => '\uFFFD'

/-- The decimal numeral of a number. -/
def ofNat (n : Nat) : Text :=
  lit (Nat.repr n)

/-- The decimal numeral of an integer, with a hyphen before it if it is negative. -/
def ofInt (n : Int) : Text :=
  lit (Int.repr n)

/-- A literal is taken off the front exactly where the text begins with it. -/
theorem after?_eq_some_iff {word t rest : Text} : after? word t = some rest ↔ t = word ++ rest := by
  induction word generalizing t with
  | nil => simp [after?]
  | cons c word ih =>
    cases t with
    | nil => simp [after?]
    | cons d t =>
      by_cases h : c = d
      · simp [after?, h, ih]
      · simp [after?, h, Ne.symm h]

theorem suffix_of_after? {word t rest : Text} (h : after? word t = some rest) : rest <:+ t :=
  ⟨word, (after?_eq_some_iff.1 h).symm⟩

theorem split_ne_nil (sep : CodePoint) (t : Text) : split sep t ≠ [] := by
  cases t with
  | nil => simp [split]
  | cons c rest =>
    simp only [split]
    split
    · simp
    · split <;> simp

/-- Joining with the separator undoes splitting. -/
theorem join_split (sep : CodePoint) (t : Text) : join [sep] (split sep t) = t := by
  induction t with
  | nil => rfl
  | cons c rest ih =>
    simp only [split]
    split
    · next h =>
      cases hs : split sep rest with
      | nil => exact absurd hs (split_ne_nil sep rest)
      | cons piece pieces => rw [hs] at ih; simp [join, ih, h]
    · next h =>
      cases hs : split sep rest with
      | nil => exact absurd hs (split_ne_nil sep rest)
      | cons piece pieces =>
        rw [hs] at ih
        cases pieces with
        | nil => simpa [join] using ih
        | cons q qs => simpa [join] using ih

end Text

end SourceJump
