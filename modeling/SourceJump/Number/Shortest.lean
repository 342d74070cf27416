/-!
# The shortest decimal

A binary floating-point number stands for an interval of reals: those that round to it. Its shortest
decimal is the one with the fewest digits in that interval and, of those, the nearest to the number,
an even last digit deciding a tie. All tests are comparisons of natural numbers.
-/

namespace SourceJump

/-- The decimal `digits · 10 ^ exponent`. -/
structure Decimal where
  digits : Nat
  exponent : Int
  deriving DecidableEq, Repr

namespace Decimal

/-- A positive rational number. -/
structure Ratio where
  num : Nat
  den : Nat

/-- The ratio `r · 10 ^ e`. -/
def Ratio.scale (r : Ratio) (e : Int) : Ratio :=
  match e with
  | .ofNat n => ⟨r.num * Nat.pow 10 n, r.den⟩
  | .negSucc n => ⟨r.num, r.den * Nat.pow 10 (n + 1)⟩

/-- The ratio `m · 2 ^ q`. -/
def Ratio.ofBinary (m : Nat) (q : Int) : Ratio :=
  match q with
  | .ofNat n => ⟨m * Nat.pow 2 n, 1⟩
  | .negSucc n => ⟨m, Nat.pow 2 (n + 1)⟩

/-- The order `a < b`. -/
def Ratio.less (a b : Ratio) : Bool :=
  a.num * b.den < b.num * a.den

/-- The exponent `e` with `10 ^ e ≤ r < 10 ^ (e + 1)`: the lengths of the two numerals determine it
up to one. -/
def Ratio.magnitude (r : Ratio) : Int :=
  let guess : Int := (Nat.repr r.num).length - (Nat.repr r.den).length
  if r.less (Ratio.scale ⟨1, 1⟩ guess) then guess - 1 else guess

/-- The reals that round to a number, `closed` telling whether the two ends belong to them. -/
structure Interval where
  low : Ratio
  high : Ratio
  closed : Bool

/-- Membership in the interval. -/
def Interval.contains (i : Interval) (r : Ratio) : Bool :=
  if i.closed then !r.less i.low && !i.high.less r else i.low.less r && r.less i.high

/-- The decimal next to `r` with `count` digits that lies in the interval, if one does. -/
def candidate? (r : Ratio) (i : Interval) (count : Nat) : Option Decimal :=
  let e := r.magnitude + 1 - count
  let scaled := r.scale (-e)
  let below := scaled.num / scaled.den
  let inside (d : Nat) : Bool := i.contains (Ratio.scale ⟨d, 1⟩ e)
  let twiceRest := 2 * (scaled.num % scaled.den)
  let up := twiceRest > scaled.den || (twiceRest == scaled.den && below % 2 == 1)
  if inside below && inside (below + 1) then some ⟨if up then below + 1 else below, e⟩
  else if inside below then some ⟨below, e⟩
  else if inside (below + 1) then some ⟨below + 1, e⟩
  else none

/-- The shortest decimal of `r` in the interval; seventeen digits always suffice for a double. -/
def shortest (r : Ratio) (i : Interval) : Decimal :=
  ((List.range 17).findSome? fun n => candidate? r i (n + 1)).getD ⟨0, 0⟩

/-- The interval of the double `m · 2 ^ q`: half a unit on both sides, a quarter below a power of
two, where the doubles below lie twice as dense. -/
def doubleInterval (m : Nat) (q : Int) (narrowBelow : Bool) : Interval :=
  { low := if narrowBelow then .ofBinary (4 * m - 1) (q - 2) else .ofBinary (2 * m - 1) (q - 1)
    high := .ofBinary (2 * m + 1) (q - 1)
    closed := m % 2 == 0 }

end Decimal

end SourceJump
