import SourceJump.Text.Classes
import SourceJump.Number.Integer
import SourceJump.Number.Shortest

/-!
# Floating-point numbers in text

A double is written as its shortest decimal: positional from 1e-4 up to below 1e16, with at least
one digit after the point, and with an exponent of at least two digits elsewhere. It is read from
digits with an optional point and exponent, or from a name of infinity or of the undefined number.
-/

namespace SourceJump.FloatText

/-- A double taken apart: the sign, and the number as `mantissa · 2 ^ exponent` unless it is
infinite or undefined. -/
inductive Parts where
  | finite (negative : Bool) (mantissa : Nat) (exponent : Int) (narrowBelow : Bool)
  | infinite (negative : Bool)
  | undefined

/-- Takes a double apart by its bits. -/
def parts (x : Float) : Parts :=
  let bits := x.toBits.toNat
  let negative := bits / Nat.pow 2 63 == 1
  let exponent : Nat := bits / Nat.pow 2 52 % Nat.pow 2 11
  let fraction := bits % Nat.pow 2 52
  if exponent = 2047 then
    if fraction = 0 then .infinite negative else .undefined
  else if exponent = 0 then .finite negative fraction (-1074) false
  else .finite negative (fraction + Nat.pow 2 52) ((exponent : Int) - 1075)
    (fraction == 0 && exponent != 1)

/-- The row `digits` with the point after the first `place` of them, zeros filling both sides. -/
def positional (digits : Text) (place : Int) : Text :=
  match place with
  | .ofNat n =>
    let whole : Text :=
      if n = 0 then ['0'] else digits.take n ++ List.replicate (n - digits.length) (.char '0')
    let fraction := digits.drop n
    whole ++ Text.lit "." ++ (if fraction.isEmpty then Text.lit "0" else fraction)
  | .negSucc n => Text.lit "0." ++ List.replicate (n + 1) (.char '0') ++ digits

/-- The row `digits` with the point after the first and the power of ten that makes up for it. -/
def scientific (digits : Text) (power : Int) : Text :=
  let mantissa :=
    match digits with
    | first :: second :: rest => first :: '.' :: second :: rest
    | _ => digits
  let size := Text.ofNat power.natAbs
  let size : Text := if size.length < 2 then '0' :: size else size
  mantissa ++ Text.lit (if power < 0 then "e-" else "e+") ++ size

/-- The text of a double. -/
def write (x : Float) : Text :=
  match parts x with
  | .undefined => Text.lit "nan"
  | .infinite negative => Text.lit (if negative then "-inf" else "inf")
  | .finite negative m q narrowBelow =>
    let sign : Text := if negative then ['-'] else []
    if m = 0 then sign ++ Text.lit "0.0"
    else
      let d := Decimal.shortest (.ofBinary m q) (Decimal.doubleInterval m q narrowBelow)
      let numeral := Text.ofNat d.digits
      let power : Int := d.exponent + numeral.length - 1
      let digits := Text.trimEnd (· == '0') numeral
      sign ++ (if -4 ≤ power && power < 16 then positional digits (power + 1)
        else scientific digits power)

/-- The double nearest to `digits · 10 ^ power`; beyond the range of doubles the power is cut, so
that no huge number is computed. -/
def nearest (digits : Nat) (power : Int) : Float :=
  let size : Int := (Nat.repr digits).length + power
  if digits = 0 || size < -400 then 0.0
  else if size > 400 then 1.0 / 0.0
  else
    match power with
    | .ofNat n => Float.ofScientific digits false n
    | .negSucc n => Float.ofScientific digits true (n + 1)

/-- Reads an exponent: `e`, an optional sign and at least one digit, or nothing at all. -/
def readPower? : Text → Option Int
  | [] => some 0
  | e :: rest =>
    if e = 'e' || e = 'E' then
      let (negative, digits) := Integer.takeSign rest
      if digits.isEmpty || !digits.all CodePoint.isDigit then none
      else
        let n : Int := Integer.ofDigits 10 digits
        some (if negative then -n else n)
    else none

/-- Reads a number without sign. -/
def readUnsigned? (t : Text) : Option Float :=
  let word := t.lowerLatin
  if word = Text.lit "inf" || word = Text.lit "infinity" then some (1.0 / 0.0)
  else if word = Text.lit "nan" then some (0.0 / 0.0)
  else
    let whole := t.takeWhile CodePoint.isDigit
    let rest := t.dropWhile CodePoint.isDigit
    let (fraction, rest) :=
      match rest with
      | '.' :: tail => (tail.takeWhile CodePoint.isDigit, tail.dropWhile CodePoint.isDigit)
      | _ => ([], rest)
    if whole.isEmpty && fraction.isEmpty then none
    else (readPower? rest).map fun power =>
      nearest (Integer.ofDigits 10 (whole ++ fraction)) (power - fraction.length)

/-- Reads the whole text, blanks around it aside. -/
def read? (t : Text) : Option Float :=
  let (negative, body) := Integer.takeSign (Text.trim Integer.isPadding (t.map Integer.plainChar))
  (readUnsigned? body).map fun x => if negative then -x else x

end SourceJump.FloatText
