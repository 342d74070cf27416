import SourceJump.Value.Calendar

/-!
# Tags

The tag of a node is its type. A plain scalar without a tag gets one from its text: the names of
nothing and of the truth values, the forms of integers, floating-point numbers and times, and the
two marks of mappings, `<<` and `=`. Any other text is just text.
-/

namespace SourceJump.Yaml

/-- The type of a node. -/
inductive Tag where
  | null
  | bool
  | int
  | float
  | binary
  | timestamp
  | orderedMap
  | pairs
  | set
  | str
  | seq
  | map
  /-- The key whose value is merged into the mapping. -/
  | merge
  /-- The key whose value stands for the mapping. -/
  | value
  | other (name : Text)
  deriving DecidableEq

namespace Tag

/-- What the names of the standard types begin with. -/
def standardStart : Text :=
  Text.lit "tag:yaml.org,2002:"

/-- The tag with a given full name. -/
def ofName (name : Text) : Tag :=
  match Text.after? standardStart name with
  | none => .other name
  | some kind =>
    let known : List (String × Tag) :=
      [("null", .null), ("bool", .bool), ("int", .int), ("float", .float), ("binary", .binary),
        ("timestamp", .timestamp), ("omap", .orderedMap), ("pairs", .pairs), ("set", .set),
        ("str", .str), ("seq", .seq), ("map", .map), ("merge", .merge), ("value", .value)]
    match known.find? fun entry => decide (Text.lit entry.1 = kind) with
    | some (_, tag) => tag
    | none => .other name

/-- The names of the truth values: in lower case, in upper case and with a capital first. -/
def boolNames : List String :=
  ["yes", "Yes", "YES", "no", "No", "NO", "true", "True", "TRUE", "false", "False", "FALSE",
    "on", "On", "ON", "off", "Off", "OFF"]

/-- The names of nothing. -/
def nullNames : List String :=
  ["", "~", "null", "Null", "NULL"]

/-- The text after an optional sign. -/
def unsigned (t : Text) : Text :=
  match t with
  | '+' :: rest | '-' :: rest => rest
  | _ => t

/-- A digit or an underscore. -/
def isDigitOrGap (c : CodePoint) : Bool :=
  c.isDigit || c == '_'

/-- A digit and then digits and underscores. -/
def isDigits (t : Text) : Bool :=
  match t with
  | [] => false
  | c :: rest => c.isDigit && rest.all isDigitOrGap

/-- One digit, or two of which the first is at most five. -/
def isSixtieth (t : Text) : Bool :=
  match t with
  | [c] => c.isDigit
  | [c, d] => '0' ≤ c && c ≤ '5' && d.isDigit
  | _ => false

/-- Digits and, after each of one or more colons, a number below sixty. -/
def isSexagesimal (t : Text) : Bool :=
  match t.split ':' with
  | first :: second :: rest => isDigits first && (second :: rest).all isSixtieth
  | _ => false

/-- The form of an integer: binary, octal, decimal, hexadecimal or in base sixty. -/
def isIntForm (t : Text) : Bool :=
  match unsigned t with
  | ['0'] => true
  | '0' :: 'b' :: rest => !rest.isEmpty && rest.all fun c => c == '0' || c == '1' || c == '_'
  | '0' :: 'x' :: rest =>
    !rest.isEmpty &&
      rest.all fun c => isDigitOrGap c || ('a' ≤ c && c ≤ 'f') || ('A' ≤ c && c ≤ 'F')
  | '0' :: rest => rest.all fun c => ('0' ≤ c && c ≤ '7') || c == '_'
  | t => isDigits t || isSexagesimal t

/-- An exponent with its sign, or nothing. -/
def isPowerForm (t : Text) : Bool :=
  match t with
  | [] => true
  | e :: sign :: rest =>
    (e == 'e' || e == 'E') && (sign == '+' || sign == '-') && !rest.isEmpty &&
      rest.all CodePoint.isDigit
  | _ => false

/-- The form of a floating-point number: with a point, and with a sign in the exponent. -/
def isFloatForm (t : Text) : Bool :=
  let named (names : List String) (t : Text) : Bool := names.any (Text.lit · = t)
  let beforePoint (c : CodePoint) : Bool := c ≠ '.'
  let whole := (unsigned t).takeWhile beforePoint
  let fraction := ((unsigned t).dropWhile beforePoint).drop 1
  let power := fraction.dropWhile isDigitOrGap
  named [".inf", ".Inf", ".INF"] (unsigned t) || named [".nan", ".NaN", ".NAN"] t ||
    ((unsigned t).contains '.' &&
      ((isDigits whole && isPowerForm power) ||
        (isSexagesimal whole && power.isEmpty) ||
        (t.head? = some '.' && isDigits (fraction.takeWhile isDigitOrGap) && isPowerForm power)))

end Tag

/-- The parts of a time as a scalar writes them. -/
structure TimestampParts where
  year : Nat
  month : Nat
  day : Nat
  /-- Hour, minute, second and the digits of the fraction. -/
  clock : Option (Nat × Nat × Nat × Text)
  /-- The minutes by which the clock is ahead of universal time. -/
  offset : Option Int

namespace TimestampParts

/-- Reads at least `least` and at most `most` digits. -/
def digits? (least most : Nat) (t : Text) : Option (Nat × Text) :=
  let run := (t.take most).takeWhile CodePoint.isDigit
  if run.length < least then none
  else some (run.foldl (fun n c => n * 10 + (c.toNat - '0'.toNat)) 0, t.drop run.length)

/-- Reads the character `c`. -/
def char? (c : CodePoint) (t : Text) : Option Text :=
  match t with
  | d :: rest => if d = c then some rest else none
  | [] => none

/-- Drops spaces and tabulators. -/
def dropBlanks (t : Text) : Text :=
  t.dropWhile fun c => c == ' ' || c == '\t'

/-- Reads the offset at the end of a time; there need not be one. -/
def offset? (t : Text) : Option (Option Int) :=
  if t.isEmpty then some none
  else
    match dropBlanks t with
    | ['Z'] => some (some 0)
    | sign :: rest =>
      if sign = '+' || sign = '-' then do
        let (hours, rest) ← digits? 1 2 rest
        let minutes ← match rest with
          | [] => some 0
          | ':' :: rest => do
            let (minutes, rest) ← digits? 2 2 rest
            if rest.isEmpty then some minutes else none
          | _ => none
        let size : Int := hours * 60 + minutes
        return some (if sign = '-' then -size else size)
      else none
    | [] => none

/-- Reads the time of day and the offset after it. -/
def clock? (t : Text) : Option ((Nat × Nat × Nat × Text) × Option Int) := do
  let (hour, t) ← digits? 1 2 t
  let (minute, t) ← digits? 2 2 (← char? ':' t)
  let (second, t) ← digits? 2 2 (← char? ':' t)
  let (fraction, t) := match t with
    | '.' :: rest => (rest.takeWhile CodePoint.isDigit, rest.dropWhile CodePoint.isDigit)
    | _ => ([], t)
  let offset ← offset? t
  return ((hour, minute, second, fraction), offset)

/-- Reads a date, and a time of day after `T` or blanks. -/
def read? (t : Text) : Option TimestampParts := do
  let (year, t) ← digits? 4 4 t
  let (month, t) ← digits? 1 2 (← char? '-' t)
  let (day, t) ← digits? 1 2 (← char? '-' t)
  match t with
  | [] => return ⟨year, month, day, none, none⟩
  | c :: rest =>
    if c = 'T' || c = 't' || c = ' ' || c = '\t' then
      let rest := if c = 'T' || c = 't' then rest else dropBlanks rest
      let (clock, offset) ← clock? rest
      return ⟨year, month, day, some clock, offset⟩
    else none

end TimestampParts

namespace Tag

/-- The form of a time; a date alone has two digits for month and day. -/
def isTimestampForm (t : Text) : Bool :=
  match TimestampParts.read? t with
  | some parts => parts.clock.isSome || t.length = 10
  | none => false

/-- The text without one line feed at its end, which only a scalar with marks can have. -/
def withoutFinalNewline (t : Text) : Text :=
  if t.getLast? = some '\n' then t.dropLast else t

/-- The tag of a plain scalar without a tag; a line feed at the end does not count unless it is all
there is. -/
def ofPlain (t : Text) : Tag :=
  let t := if t = Text.lit "\n" then t else withoutFinalNewline t
  if boolNames.any (Text.lit · = t) then .bool
  else if nullNames.any (Text.lit · = t) then .null
  else if isFloatForm t then .float
  else if isIntForm t then .int
  else if isTimestampForm t then .timestamp
  else if t = Text.lit "<<" then .merge
  else if t = Text.lit "=" then .value
  else if ["!", "&", "*"].any (Text.lit · = t) then .other t
  else .str

end Tag

end SourceJump.Yaml
