import SourceJump.Text.Classes
import SourceJump.Text.Printable

/-!
# Integers in text

An integer is written as blanks, one optional sign, digits of any script with single underscores
between them, and blanks. The base is two, eight, ten or sixteen; the three that are powers of two
admit their customary mark (`0b`, `0o`, `0x`) before the digits. Decimal texts of more than 4300
digits are refused, because their conversion would take time quadratic in their length.
-/

namespace SourceJump

/-- Why a text is no integer. -/
inductive IntegerError where
  /-- The text is not of the form. -/
  | malformed (base : Nat) (text : Text)
  /-- The text has more digits than are converted. -/
  | tooLong (digits : Nat)
  deriving DecidableEq

namespace Integer

/-- The greatest number of decimal digits that is converted, in either direction. -/
def maxDigits : Nat := 4300

/-- The greatest number of characters of a malformed text, quoted, that a message shows. -/
def maxShown : Nat := 200

/-- Digits of other scripts as digits 0 to 9 and blanks beyond U+007F as spaces. -/
def plainChar (c : CodePoint) : CodePoint :=
  if c.toNat < 0x7f then c
  else if isBlank c then ' '
  else
    match digitValue? c with
    | some d => .char (Nat.digitChar d)
    | none => c

/-- Space and the controls from tabulator to carriage return. -/
def isPadding (c : CodePoint) : Bool :=
  c == ' ' || (0x09 ≤ c.toNat && c.toNat ≤ 0x0d)

/-- The value of a digit or of a letter that serves as one. -/
def digit (c : CodePoint) : Nat :=
  if c.isDigit then c.toNat - '0'.toNat
  else if c.isLower then c.toNat - 'a'.toNat + 10
  else if c.isUpper then c.toNat - 'A'.toNat + 10
  else 36

/-- The sign at the front and the text after it. -/
def takeSign : Text → Bool × Text
  | '-' :: rest => (true, rest)
  | '+' :: rest => (false, rest)
  | t => (false, t)

/-- The text after the mark of the base, and after one underscore that follows the mark. -/
def dropBaseMark (base : Nat) (t : Text) : Text :=
  let marks : Text :=
    if base = 16 then ['x', 'X'] else if base = 8 then ['o', 'O']
    else if base = 2 then ['b', 'B'] else []
  match t with
  | '0' :: mark :: rest =>
    if marks.contains mark then
      match rest with
      | '_' :: rest => rest
      | _ => rest
    else t
  | _ => t

/-- Underscores stand only between two digits. -/
def wellSeparated (digits : Text) : Bool :=
  (digits.split '_').all (! ·.isEmpty)

/-- The digits of a row of digits and underscores. -/
def withoutSeparators (digits : Text) : Text :=
  digits.filter fun c => c ≠ CodePoint.char '_'

/-- The number that a row of digits and underscores denotes. -/
def ofDigits (base : Nat) (digits : Text) : Nat :=
  (withoutSeparators digits).foldl (fun n c => n * base + digit c) 0

/-- Reads the whole text as an integer. -/
def read (base : Nat) (t : Text) : Except IntegerError Int :=
  let (negative, body) := takeSign ((t.map plainChar).dropWhile isPadding)
  let body := dropBaseMark base body
  let isDigit c := decide (digit c < base)
  let digits := body.takeWhile fun c => isDigit c || c == '_'
  let rest := body.dropWhile fun c => isDigit c || c == '_'
  let count := (withoutSeparators digits).length
  if digits.isEmpty || !wellSeparated digits then .error (.malformed base t)
  else if base = 10 && maxDigits < count then .error (.tooLong count)
  else if !rest.all isPadding then .error (.malformed base t)
  else
    let n : Int := ofDigits base digits
    .ok (if negative then -n else n)

end Integer

/-- The message for a text that is no integer. -/
def IntegerError.message : IntegerError → String
  | .malformed base text =>
    let shown := Text.toString (text.quote.take Integer.maxShown)
    s!"invalid literal for int() with base {base}: {shown}"
  | .tooLong digits =>
    let limit := Integer.maxDigits
    s!"Exceeds the limit ({limit} digits) for integer string conversion: value has {digits} " ++
      "digits; use sys.set_int_max_str_digits() to increase the limit"

end SourceJump
