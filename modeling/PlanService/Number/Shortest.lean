import PlanService.Number.Binary64

/-! # The shortest decimal of a double

The fewest digits that read back as the same double, and of those the nearest to it.  A
finite double stands for the interval of reals that round to it; on the decimal grids of
one, two, … seventeen digits only the two neighbours of the value can lie in it, so the
first grid with a hit gives the answer.
-/

namespace PlanService

structure DecimalDigits where
  digits : Nat
  exponent : Int
  deriving Repr, DecidableEq

namespace Magnitude

/-- The ends of the interval that rounds to a nonzero `x`, and `x` itself, all in units of
`2 ^ (x.exponent - 2)`.  Below a power of two the neighbour is only half as far. -/
def interval (x : Magnitude) : Nat × Nat × Nat :=
  let m := x.significand
  let low := if m == Nat.pow 2 52 && (-1074 : Int) < x.exponent then 4 * m - 1 else 4 * m - 2
  (low, 4 * m, 4 * m + 2)

/-- The factors `(a, b)` for which `u * 2 ^ e` and `t * 10 ^ k` compare as `u * a` and
`t * b`. -/
def gridFactors (e k : Int) : Nat × Nat :=
  (Nat.pow 2 e.toNat * Nat.pow 10 (-k).toNat, Nat.pow 2 (-e).toNat * Nat.pow 10 k.toNat)

/-- Whether `t * 10 ^ k` rounds to `x`; the interval's ends do so when the significand is
even. -/
def reads (x : Magnitude) (t : Nat) (k : Int) : Bool :=
  let (low, _, high) := x.interval
  let (a, b) := gridFactors (x.exponent - 2) k
  if x.significand % 2 == 0 then low * a ≤ t * b && t * b ≤ high * a
  else low * a < t * b && t * b < high * a

/-- The point of the grid of spacing `10 ^ k` that reads back as `x`, if there is one: the
nearer of the two neighbours, and the even one of two that are equally near. -/
def onGrid (x : Magnitude) (k : Int) : Option Nat :=
  let (_, mid, _) := x.interval
  let (a, b) := gridFactors (x.exponent - 2) k
  let below := mid * a / b
  let twice := 2 * (mid * a % b)
  let nearer := if b < twice || (twice == b && below % 2 == 1) then below + 1 else below
  let other := if nearer == below then below + 1 else below
  if x.reads nearer k then some nearer
  else if x.reads other k then some other
  else none

/-- The number of digits of `x` before the decimal point, for `x ≥ 1`; zero or negative
below.  `k` digits means `10 ^ (k - 1) ≤ x < 10 ^ k`. -/
def decimalPlace (x : Magnitude) : Int :=
  let (n, d) := x.quotient
  -- an estimate that is at most one too small
  let estimate : Int := ((n.log2 : Int) - d.log2 - 1) * 30103 / 100000
  let atLeast (k : Int) : Bool := d * Nat.pow 10 k.toNat ≤ n * Nat.pow 10 (-k).toNat
  if atLeast (estimate + 1) then estimate + 2
  else if atLeast estimate then estimate + 1
  else estimate

/-- The first grid that has a point reading back as `x`, of those with `count`, `count + 1`,
… digits. -/
def firstOnGrid (x : Magnitude) (place : Int) : Nat → Nat → Option DecimalDigits
  | 0, _ => none
  | more + 1, count =>
    match x.onGrid (place - count) with
    | some t => some ⟨t, place - count⟩
    | none => firstOnGrid x place more (count + 1)

/-- Drops trailing zeros of the digits: `1200 * 10 ^ k` is `12 * 10 ^ (k + 2)`.  The first
argument bounds how many. -/
def dropZeros : Nat → DecimalDigits → DecimalDigits
  | 0, d => d
  | more + 1, d =>
    if d.digits != 0 && d.digits % 10 == 0 then dropZeros more ⟨d.digits / 10, d.exponent + 1⟩
    else d

/-- The shortest decimal that reads back as a nonzero `x`. -/
def shortest (x : Magnitude) : DecimalDigits :=
  dropZeros 20 ((x.firstOnGrid x.decimalPlace 17 1).getD ⟨0, 0⟩)

end Magnitude

end PlanService
