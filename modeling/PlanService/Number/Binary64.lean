/-! # Finite double-precision numbers

A finite IEEE 754 double is kept as its sign and an integer significand times a power of
two, so that every rounding is exact arithmetic on natural numbers.  `Magnitude.round` is
the nearest double to a quotient, a tie going to the even significand; products, quotients
and conversions are rounded values of it.
-/

namespace PlanService

/-- The absolute value `significand * 2 ^ exponent` of a finite double.  Zero is `⟨0, 0⟩`;
any other value has either 53 significant bits or the least exponent, `-1074`. -/
structure Magnitude where
  significand : Nat
  exponent : Int
  deriving Repr, DecidableEq

namespace Magnitude

def zero : Magnitude := ⟨0, 0⟩

def isZero (x : Magnitude) : Bool := x.significand == 0

/-- `num / den`, both scaled by a power of two so that the quotient is counted in units of
`2 ^ exponent`. -/
def scaled (num den : Nat) (exponent : Int) : Nat × Nat :=
  if exponent < 0 then (num <<< exponent.natAbs, den) else (num, den <<< exponent.natAbs)

/-- The exponent at which `num / den` has 53 bits before the point, but at least `-1074`. -/
def unitExponent (num den : Nat) : Int :=
  let low : Int := (num.log2 : Int) - den.log2 - 53
  let (n, d) := scaled num den low
  max (-1074) (if n / d < Nat.pow 2 53 then low else low + 1)

/-- The quotient `num / den` to the nearest integer, a tie going to the even one. -/
def roundHalfEven (num den : Nat) : Nat :=
  let q := num / den
  let twice := 2 * (num % den)
  if den < twice || (twice == den && q % 2 == 1) then q + 1 else q

/-- The double nearest to `num / den`; none when it is too large for a finite one. -/
def round (num den : Nat) : Option Magnitude :=
  if num == 0 then some zero
  else
    let e := unitExponent num den
    let (n, d) := scaled num den e
    let m := roundHalfEven n d
    let (m, e) := if m == Nat.pow 2 53 then (Nat.pow 2 52, e + 1) else (m, e)
    if 971 < e then none
    else if m == 0 then some zero
    else some ⟨m, e⟩

/-- The number as an exact quotient of natural numbers. -/
def quotient (x : Magnitude) : Nat × Nat :=
  if x.exponent < 0 then (x.significand, Nat.pow 2 x.exponent.natAbs)
  else (x.significand * Nat.pow 2 x.exponent.natAbs, 1)

def ofNat (n : Nat) : Option Magnitude :=
  round n 1

def mul (x y : Magnitude) : Option Magnitude :=
  round (x.quotient.1 * y.quotient.1) (x.quotient.2 * y.quotient.2)

def div (x y : Magnitude) : Option Magnitude :=
  round (x.quotient.1 * y.quotient.2) (x.quotient.2 * y.quotient.1)

end Magnitude

/-- A finite double: its sign and its absolute value.  The two zeros differ. -/
structure Binary64 where
  negative : Bool
  magnitude : Magnitude
  deriving Repr, DecidableEq

end PlanService
