import BenchLog.Decimal.Rounding

/-! Positive quotients of natural numbers and their powers of a base.
The exponent of a quotient is where its first digit stands, found on whole numbers alone.
-/

namespace BenchLog.Decimal

/-- The quotient of two natural numbers, not reduced. -/
structure Ratio where
  num : Nat
  den : Nat
  deriving Repr, DecidableEq

namespace Ratio

/-- The quotient times a power of a base, the power being of either sign. -/
def scale (r : Ratio) (base : Nat) (power : Int) : Ratio :=
  ⟨r.num * base.pow power.toNat, r.den * base.pow (-power).toNat⟩

/-- The nearest integer, the even one of two that are equally near. -/
def round (r : Ratio) : Nat :=
  roundDiv r.num r.den

/-- The power of the base at which the first digit of a positive quotient stands. -/
def exponent (r : Ratio) (base : Nat) : Int :=
  if r.den ≤ r.num then
    (digitCount base (r.num / r.den) : Int) - 1
  else
    -(digitCount base ((r.den - 1) / r.num) : Int)

end Ratio

end BenchLog.Decimal
