/-! Rounding a quotient of natural numbers to the nearest one.
The result is within half a unit, and of two equally near integers the even one is taken.
-/

namespace BenchLog.Decimal

/-- The integer nearest to `num / den`, the even one of two that are equally near. -/
def roundDiv (num den : Nat) : Nat :=
  let low := num / den
  let rest := num % den
  if 2 * rest < den then low
  else if den < 2 * rest then low + 1
  else if low % 2 = 0 then low
  else low + 1

/-- The number of digits of `n` in a base, none for zero. -/
def digitCount (base n : Nat) : Nat :=
  if h : n = 0 ∨ base < 2 then 0
  else digitCount base (n / base) + 1
termination_by n
decreasing_by exact Nat.div_lt_self (by omega) (by omega)

/-- The rounded quotient is at most half a unit above the quotient. -/
theorem two_mul_roundDiv_le (num : Nat) {den : Nat} (h : 0 < den)
    : 2 * (roundDiv num den * den) ≤ 2 * num + den := by
  have hn := Nat.div_add_mod num den
  have hr := Nat.mod_lt num h
  have hm : (num / den + 1) * den = den * (num / den) + den := by
    rw [Nat.add_mul, Nat.mul_comm, Nat.one_mul]
  have hm' : num / den * den = den * (num / den) := Nat.mul_comm _ _
  simp only [roundDiv]
  split
  · omega
  · split
    · omega
    · split <;> omega

/-- The rounded quotient is at most half a unit below the quotient. -/
theorem le_two_mul_roundDiv (num : Nat) {den : Nat} (h : 0 < den)
    : 2 * num ≤ 2 * (roundDiv num den * den) + den := by
  have hn := Nat.div_add_mod num den
  have hr := Nat.mod_lt num h
  have hm : (num / den + 1) * den = den * (num / den) + den := by
    rw [Nat.add_mul, Nat.mul_comm, Nat.one_mul]
  have hm' : num / den * den = den * (num / den) := Nat.mul_comm _ _
  simp only [roundDiv]
  split
  · omega
  · split
    · omega
    · split <;> omega

/-- Of two equally near integers the even one is taken. -/
theorem roundDiv_even_of_tie {num den : Nat} (tie : 2 * (num % den) = den)
    : roundDiv num den % 2 = 0 := by
  simp only [roundDiv, tie, Nat.lt_irrefl, if_false]
  split <;> omega

end BenchLog.Decimal
