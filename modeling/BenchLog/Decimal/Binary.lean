import BenchLog.Decimal.Ratio

/-! Binary floating-point numbers of 64 bits as exact quotients.
A finite one is a significand times a power of two, and its bits without the sign count the
numbers below it, so that the code of a significand is a sum.
-/

namespace BenchLog.Decimal

/-- What a floating-point number stands for. -/
inductive Number where
  /-- No number. -/
  | nan
  /-- Beyond every finite number. -/
  | infinite (negative : Bool)
  /-- The significand times two to the exponent, with a sign also for zero. -/
  | finite (negative : Bool) (significand : Nat) (exponent : Int)
  deriving Repr, DecidableEq

def minExponent : Int := -1074

/-- The significands of more than this are the normal ones. -/
def normalBound : Nat := 0x10000000000000

/-- The code of the infinity without sign. -/
def infiniteCode : Nat := 0x7FF * normalBound

/-- The bits of the negative zero, which are in every negative number. -/
def signBit : Nat := 0x8000000000000000

def Number.ofCode (negative : Bool) (code : Nat) : Number :=
  let field := code / normalBound
  let fraction := code % normalBound
  if field = 0x7FF then
    if fraction = 0 then .infinite negative else .nan
  else if field = 0 then
    .finite negative fraction minExponent
  else
    .finite negative (normalBound + fraction) (minExponent + field - 1)

/-- The number for which a floating-point value stands. -/
def Number.ofFloat (x : Float) : Number :=
  let bits := x.toBits.toNat
  .ofCode (decide (signBit ≤ bits)) (bits % signBit)

def binaryRatio (significand : Nat) (exponent : Int) : Ratio :=
  Ratio.scale ⟨significand, 1⟩ 2 exponent

/-- The code of a significand at an exponent, for normal and subnormal ones alike. -/
def codeOf (significand : Nat) (exponent : Int) : Nat :=
  significand + (exponent - minExponent).toNat * normalBound

/-- The code of the nearest floating-point number, the one with even significand of two that are
equally near, and the code of the infinity from half a unit beyond the largest number. -/
def nearestCode (r : Ratio) : Nat :=
  if r.num = 0 then 0
  else
    let exponent := max (r.exponent 2 - 52) minExponent
    min (codeOf (r.scale 2 (-exponent)).round exponent) infiniteCode

/-- The floating-point value with the given code and sign. -/
def floatOfCode (negative : Bool) (code : Nat) : Float :=
  Float.ofBits (UInt64.ofNat (if negative then signBit + code else code))

/-- The floating-point value that stands for no number. -/
def notANumber : Float :=
  floatOfCode false (infiniteCode + normalBound / 2)

def isNotANumber (x : Float) : Bool :=
  Number.ofFloat x == .nan

end BenchLog.Decimal
