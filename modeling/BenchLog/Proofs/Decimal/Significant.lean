import BenchLog.Decimal.General
import BenchLog.Proofs.Decimal.Ratio

/-! Decimal numbers with a given count of significant digits.
Rounding finds the one nearest to a quotient, of two the one whose last digit is even. Just below a
power of ten its digits are those of the next exponent, and with the places of that exponent the
quotient is rounded to the same digits again.
-/

namespace BenchLog.Decimal

namespace Significant

-----------------------------------------------------------------------------------------
-- Values
-----------------------------------------------------------------------------------------

/-- The number has exactly the count of digits, of which the first is not zero. -/
def Full (count : Nat) (s : Significant) : Prop :=
  10 ^ (count - 1) ≤ s.units ∧ s.units < 10 ^ count

/-- The value of the last digit being one. -/
def unit (count : Nat) (e : Int) : ℚ :=
  10 ^ (e + 1 - count)

/-- The rational number of a count of significant digits. -/
def value (count : Nat) (s : Significant) : ℚ :=
  s.units * unit count s.exponent

section

variable {count : Nat} {s t : Significant} {e : Int}

theorem unit_pos (count : Nat) (e : Int)
    : 0 < unit count e :=
  zpow_pos (by norm_num) _

/-- The least number of full digits at an exponent. -/
theorem pow_mul_unit (hcount : 0 < count) (e : Int)
    : (10 : ℚ) ^ (count - 1) * unit count e = 10 ^ e := by
  rw [unit, ← zpow_natCast, ← zpow_add₀ (by norm_num)]
  congr 1
  omega

theorem pow_mul_unit_succ (count : Nat) (e : Int)
    : (10 : ℚ) ^ count * unit count e = 10 ^ (e + 1) := by
  rw [unit, ← zpow_natCast, ← zpow_add₀ (by norm_num)]
  congr 1
  omega

theorem unit_add (count : Nat) (e : Int) (d : Nat)
    : unit count (e + d) = 10 ^ d * unit count e := by
  rw [unit, unit, ← zpow_natCast, ← zpow_add₀ (by norm_num)]
  congr 1
  omega

theorem unit_succ (count : Nat) (e : Int)
    : unit count (e + 1) = 10 * unit count e := by
  have h := unit_add count e 1
  rwa [Nat.cast_one, pow_one] at h

theorem Full.pow_le_value (h : s.Full count) (hcount : 0 < count)
    : (10 : ℚ) ^ s.exponent ≤ s.value count := by
  have hunits : (10 : ℚ) ^ (count - 1) ≤ s.units := by exact_mod_cast h.1
  rw [value, ← pow_mul_unit hcount]
  exact mul_le_mul_of_nonneg_right hunits (unit_pos _ _).le

theorem Full.value_lt_pow (h : s.Full count)
    : s.value count < (10 : ℚ) ^ (s.exponent + 1) := by
  have hunits : (s.units : ℚ) < 10 ^ count := by exact_mod_cast h.2
  rw [value, ← pow_mul_unit_succ count]
  exact mul_lt_mul_of_pos_right hunits (unit_pos _ _)

theorem Full.value_lt_of_exponent_lt (h : s.Full count) (hlt : s.exponent < e)
    : s.value count < (10 : ℚ) ^ e :=
  lt_of_lt_of_le h.value_lt_pow (zpow_le_zpow_right₀ (by norm_num) hlt)

/-- The exponent of full digits is where their value begins. -/
theorem Full.exponent_le_of_pow_le (h : s.Full count) (hle : (10 : ℚ) ^ e ≤ s.value count)
    : e ≤ s.exponent :=
  le_of_not_gt fun hlt => hle.not_gt (h.value_lt_of_exponent_lt hlt)

/-- After all nines come the least digits of the next exponent. -/
theorem value_carry (hcount : 0 < count) (e : Int)
    : value count ⟨10 ^ (count - 1), e + 1⟩ = ((10 ^ count : Nat) : ℚ) * unit count e := by
  rw [value, Nat.cast_pow, Nat.cast_pow, Nat.cast_ofNat, pow_mul_unit hcount, pow_mul_unit_succ]

/-- In units of a lower exponent a number is a natural one. -/
theorem exists_value_eq_mul (count : Nat) (hle : e ≤ s.exponent)
    : ∃ k : Nat, s.value count = k * unit count e := by
  obtain ⟨d, hd⟩ : ∃ d : Nat, s.exponent = e + d := ⟨(s.exponent - e).toNat, by omega⟩
  refine ⟨s.units * 10 ^ d, ?_⟩
  rw [value, hd, unit_add]
  push_cast
  ring

/-- Full digits are determined by their value. -/
theorem Full.eq_of_value_eq (hs : s.Full count) (ht : t.Full count) (hcount : 0 < count)
    (h : s.value count = t.value count)
    : s = t := by
  have hst : s.exponent ≤ t.exponent := ht.exponent_le_of_pow_le (h ▸ hs.pow_le_value hcount)
  have hts : t.exponent ≤ s.exponent := hs.exponent_le_of_pow_le (h ▸ ht.pow_le_value hcount)
  have hexponent := le_antisymm hst hts
  rw [value, value, hexponent] at h
  have hunits : s.units = t.units := by
    exact_mod_cast mul_right_cancel₀ (unit_pos count t.exponent).ne' h
  cases s
  cases t
  simp_all

end

-----------------------------------------------------------------------------------------
-- The nearest number
-----------------------------------------------------------------------------------------

/-- Of all numbers with the count of significant digits this one is nearest to the rational number,
and if another one is equally near, its last digit is even. -/
structure Nearest (count : Nat) (v : ℚ) (s : Significant) : Prop where
  full : s.Full count
  near : ∀ {t : Significant}, t.Full count → |v - s.value count| ≤ |v - t.value count|
  even
    : ∀ {t : Significant},
        t.Full count → t ≠ s → |v - t.value count| = |v - s.value count| → s.units % 2 = 0

/-- If a multiple of a unit is within half a unit, every other one is half a unit away. -/
theorem half_le_abs_sub {v u : ℚ} {n k : Nat} (hu : 0 < u) (near : |v - n * u| ≤ u / 2)
    (hne : k ≠ n)
    : u / 2 ≤ |v - k * u| := by
  obtain ⟨hl, hh⟩ := abs_le.mp near
  rcases Nat.lt_or_gt_of_ne hne with hlt | hgt
  · have hk : (k : ℚ) + 1 ≤ n := by exact_mod_cast hlt
    have := mul_le_mul_of_nonneg_right hk hu.le
    exact le_trans (by linarith) (le_abs_self _)
  · have hk : (n : ℚ) + 1 ≤ k := by exact_mod_cast hgt
    have := mul_le_mul_of_nonneg_right hk hu.le
    exact le_trans (by linarith) (neg_le_abs _)

section

variable {count : Nat} {v : ℚ} {s t : Significant} {e : Int}

/-- No full digits are nearer to what begins at an exponent than some multiple of its unit, which
of those with a lower exponent is the least of the exponent itself. -/
theorem Full.exists_multiple (ht : t.Full count) (hcount : 0 < count) (low : (10 : ℚ) ^ e ≤ v)
    : ∃ k : Nat,
        |v - k * unit count e| ≤ |v - t.value count|
        ∧ (|v - k * unit count e| = |v - t.value count| → t.value count = k * unit count e) := by
  by_cases hle : e ≤ t.exponent
  · obtain ⟨k, hk⟩ := exists_value_eq_mul count hle
    exact ⟨k, by rw [hk], fun _ => hk⟩
  · have hbelow := ht.value_lt_of_exponent_lt (lt_of_not_ge hle)
    have hleast : (((10 ^ (count - 1) : Nat) : ℚ)) * unit count e = 10 ^ e := by
      rw [Nat.cast_pow]
      exact pow_mul_unit hcount e
    refine ⟨10 ^ (count - 1), ?_, fun h => ?_⟩
    · rw [hleast, abs_of_nonneg (by linarith), abs_of_pos (by linarith)]
      linarith
    · rw [hleast, abs_of_nonneg (by linarith), abs_of_pos (by linarith)] at h
      rw [hleast]
      linarith

/-- Digits within half a unit are the nearest ones if a tie has made them even. -/
theorem nearest_of_abs_sub_le {n : Nat} (hcount : 0 < count) (full : s.Full count)
    (hvalue : s.value count = n * unit count e) (low : (10 : ℚ) ^ e ≤ v)
    (near : |v - n * unit count e| ≤ unit count e / 2)
    (tie : |v - n * unit count e| = unit count e / 2 → s.units % 2 = 0)
    : s.Nearest count v := by
  have hu := unit_pos count e
  refine ⟨full, ?_, ?_⟩
  · intro t ht
    obtain ⟨k, hk, -⟩ := ht.exists_multiple hcount low
    rw [hvalue]
    by_cases hkn : k = n
    · exact hkn ▸ hk
    · exact near.trans ((half_le_abs_sub hu near hkn).trans hk)
  · intro t ht hne hsame
    obtain ⟨k, hk, hequal⟩ := ht.exists_multiple hcount low
    rw [hvalue] at hsame
    by_cases hkn : k = n
    · subst hkn
      exact absurd (ht.eq_of_value_eq full hcount ((hequal hsame.symm).trans hvalue.symm)) hne
    · have hhalf := (half_le_abs_sub hu near hkn).trans hk
      exact tie (le_antisymm near (hsame ▸ hhalf))

/-- A number with an even last digit has a successor with as many digits. -/
theorem Full.succ (h : s.Full count) (hcount : 0 < count) (even : s.units % 2 = 0)
    : (⟨s.units + 1, s.exponent⟩ : Significant).Full count := by
  obtain ⟨k, rfl⟩ : ∃ k, count = k + 1 := ⟨count - 1, by omega⟩
  obtain ⟨hlow, hhigh⟩ := h
  refine ⟨hlow.trans (Nat.le_succ _), ?_⟩
  change s.units + 1 < 10 ^ (k + 1)
  rw [pow_succ] at hhigh ⊢
  omega

/-- From a number to a greater one is one unit of it, or two or more. -/
theorem Full.add_unit_eq_or_le (hs : s.Full count) (ht : t.Full count) (hcount : 0 < count)
    (hlt : s.value count < t.value count)
    : s.value count + unit count s.exponent = t.value count
      ∨ s.value count + 2 * unit count s.exponent ≤ t.value count := by
  have hu := unit_pos count s.exponent
  have hexponent : s.exponent ≤ t.exponent :=
    ht.exponent_le_of_pow_le ((hs.pow_le_value hcount).trans hlt.le)
  obtain ⟨k, hk⟩ := exists_value_eq_mul count hexponent
  have hunits : s.units < k := by
    rw [hk, value, mul_lt_mul_iff_left₀ hu] at hlt
    exact_mod_cast hlt
  rw [hk, value]
  rcases (by omega : k = s.units + 1 ∨ s.units + 2 ≤ k) with rfl | hle
  · left
    push_cast
    ring
  · right
    have hle : (s.units : ℚ) + 2 ≤ k := by exact_mod_cast hle
    have := mul_le_mul_of_nonneg_right hle hu.le
    linarith

/-- Of two numbers that are nearest none is less. Both would be even, so that the successor of the
lesser one would lie between them and be nearer. -/
theorem Nearest.value_le (hs : s.Nearest count v) (ht : t.Nearest count v) (hcount : 0 < count)
    : t.value count ≤ s.value count := by
  by_contra hnot
  have hlt : s.value count < t.value count := lt_of_not_ge hnot
  have hne : t ≠ s := fun h => hlt.ne (h ▸ rfl)
  have hsame : |v - t.value count| = |v - s.value count| :=
    le_antisymm (ht.near hs.full) (hs.near ht.full)
  have hseven := hs.even ht.full hne hsame
  have hteven := ht.even hs.full hne.symm hsame.symm
  have hsucc := hs.full.succ hcount hseven
  have hsuccvalue
      : value count ⟨s.units + 1, s.exponent⟩ = s.value count + unit count s.exponent := by
    rw [value, value]
    push_cast
    ring
  rcases hs.full.add_unit_eq_or_le ht.full hcount hlt with hnext | hfar
  · have hodd := hsucc.eq_of_value_eq ht.full hcount (hsuccvalue.trans hnext)
    rw [← hodd] at hteven
    dsimp only at hteven
    omega
  · have hmiddle : v - s.value count = t.value count - v := by
      rcases abs_eq_abs.mp hsame with h | h <;> linarith
    have hu := unit_pos count s.exponent
    have hnear := hs.near hsucc
    rw [hsuccvalue, abs_of_nonneg (by linarith), abs_of_nonneg (by linarith)] at hnear
    linarith

/-- There is only one nearest number. -/
theorem Nearest.eq (hs : s.Nearest count v) (ht : t.Nearest count v) (hcount : 0 < count)
    : t = s :=
  ht.full.eq_of_value_eq hs.full hcount
    (le_antisymm (hs.value_le ht hcount) (ht.value_le hs hcount))

end

end Significant

-----------------------------------------------------------------------------------------
-- Rounding
-----------------------------------------------------------------------------------------

namespace Ratio

open Significant

section

variable {r : Ratio} {count : Nat}

/-- A quotient in units of the last digit at an exponent. -/
theorem value_scale_mul_unit (r : Ratio) (count : Nat) (e : Int)
    : (r.scale 10 (count - 1 - e)).value * unit count e = r.value := by
  have hpower : (count : Int) - 1 - e + (e + 1 - count) = 0 := by ring
  rw [value_scale r (by decide), Nat.cast_ofNat, unit, mul_assoc, ← zpow_add₀ (by norm_num), hpower,
    zpow_zero, mul_one]

/-- The rounded digits of a quotient at its exponent are full, or the power of ten after these. -/
theorem round_scale_bounds (hn : 0 < r.num) (hd : 0 < r.den) (hcount : 0 < count)
    : 10 ^ (count - 1) ≤ (r.scale 10 (count - 1 - r.exponent 10)).round
      ∧ (r.scale 10 (count - 1 - r.exponent 10)).round ≤ 10 ^ count := by
  obtain ⟨hlow, hhigh⟩ := exponent_bounds hn hd (by decide : 2 ≤ 10)
  have hu := unit_pos count (r.exponent 10)
  have hscaled := den_scale_pos hd (by decide : 10 ≠ 0) (count - 1 - r.exponent 10)
  rw [Nat.cast_ofNat, ← value_scale_mul_unit r count (r.exponent 10)] at hlow hhigh
  rw [← pow_mul_unit hcount, mul_le_mul_iff_left₀ hu] at hlow
  rw [← pow_mul_unit_succ, mul_lt_mul_iff_left₀ hu] at hhigh
  obtain ⟨hl, hh⟩ := abs_le.mp (abs_value_sub_round_le hscaled)
  generalize (r.scale 10 (count - 1 - r.exponent 10)).value = w at *
  generalize (r.scale 10 (count - 1 - r.exponent 10)).round = n at *
  constructor
  · have : ((10 ^ (count - 1) : Nat) : ℚ) < ((n + 1 : Nat) : ℚ) := by
      push_cast
      linarith
    have : 10 ^ (count - 1) < n + 1 := by exact_mod_cast this
    omega
  · have : (n : ℚ) < ((10 ^ count + 1 : Nat) : ℚ) := by
      push_cast
      linarith
    have : n < 10 ^ count + 1 := by exact_mod_cast this
    omega

/-- Rounded digits are within half a unit, in any exponent. -/
theorem abs_sub_round_mul_unit_le (count : Nat) (hd : 0 < r.den) (e : Int)
    : |r.value - (r.scale 10 (count - 1 - e)).round * unit count e| ≤ unit count e / 2 := by
  have hu := unit_pos count e
  have hnear := abs_value_sub_round_le (den_scale_pos hd (by decide : 10 ≠ 0) (count - 1 - e))
  rw [← value_scale_mul_unit r count e, ← sub_mul, abs_mul, abs_of_pos hu, div_eq_mul_inv, mul_comm,
    ← one_div]
  exact mul_le_mul_of_nonneg_left hnear hu.le

/-- The digits found are the rounded ones, or after a carry those of the next power of ten. -/
theorem significant_cases (hn : 0 < r.num) (hd : 0 < r.den) (hcount : 0 < count)
    : (r.significant count).Full count
        ∧ r.significant count =
          ⟨(r.scale 10 (count - 1 - r.exponent 10)).round, r.exponent 10⟩
      ∨ (r.scale 10 (count - 1 - r.exponent 10)).round = 10 ^ count
        ∧ r.significant count = ⟨10 ^ (count - 1), r.exponent 10 + 1⟩ := by
  obtain ⟨hlow, hhigh⟩ := round_scale_bounds hn hd hcount
  unfold significant
  dsimp only
  rw [Nat.pow_eq]
  split
  · next hlt => exact Or.inl ⟨⟨hlow, hlt⟩, rfl⟩
  · next hge =>
      have hcarry := le_antisymm hhigh (Nat.le_of_not_lt hge)
      refine Or.inr ⟨hcarry, ?_⟩
      obtain ⟨k, rfl⟩ : ∃ k, count = k + 1 := ⟨count - 1, by omega⟩
      rw [hcarry, pow_succ, Nat.mul_div_cancel _ (by decide), Nat.add_sub_cancel]

/-- The digits found are the nearest ones, with a carry too. -/
theorem nearest_significant (hn : 0 < r.num) (hd : 0 < r.den) (hcount : 2 ≤ count)
    : (r.significant count).Nearest count r.value := by
  have hpos : 0 < count := by omega
  have hlow := (exponent_bounds hn hd (by decide : 2 ≤ 10)).1
  have hnear := abs_sub_round_mul_unit_le count hd (r.exponent 10)
  rw [Nat.cast_ofNat] at hlow
  rcases significant_cases hn hd hpos with ⟨full, hs⟩ | ⟨hcarry, hs⟩
  · rw [hs] at full ⊢
    refine nearest_of_abs_sub_le hpos full rfl hlow hnear fun tie => ?_
    have hu := unit_pos count (r.exponent 10)
    apply round_even_of_tie (den_scale_pos hd (by decide) _)
    rw [← value_scale_mul_unit r count (r.exponent 10), ← sub_mul, abs_mul, abs_of_pos hu] at tie
    apply mul_right_cancel₀ hu.ne'
    linarith
  · rw [hcarry] at hnear
    rw [hs]
    have hten : 10 ^ (count - 1) % 2 = 0 := by
      obtain ⟨k, rfl⟩ : ∃ k, count = k + 2 := ⟨count - 2, by omega⟩
      rw [Nat.add_sub_assoc (by decide), pow_succ]
      omega
    refine nearest_of_abs_sub_le hpos ⟨le_refl _, ?_⟩ (value_carry hpos _) hlow hnear
      fun _ => hten
    exact Nat.pow_lt_pow_right (by decide) (by omega)

/-- With the places of the exponent after rounding, the same digits are found again. -/
theorem round_scale_significant (hn : 0 < r.num) (hd : 0 < r.den) (hcount : 0 < count)
    : (r.scale 10 (count - 1 - (r.significant count).exponent)).round =
        (r.significant count).units := by
  rcases significant_cases hn hd hcount with ⟨-, hs⟩ | ⟨hcarry, hs⟩
  · rw [hs]
  · have hnear := abs_sub_round_mul_unit_le count hd (r.exponent 10)
    have hu := unit_pos count (r.exponent 10)
    rw [hcarry, ← value_carry hcount, Significant.value,
      ← value_scale_mul_unit r count (r.exponent 10 + 1), ← sub_mul, unit_succ, abs_mul,
      abs_of_pos (mul_pos (by norm_num) hu)] at hnear
    -- the carry leaves a twentieth of a unit
    have hclose
        : |(r.scale 10 (count - 1 - (r.exponent 10 + 1))).value - ((10 ^ (count - 1) : Nat) : ℚ)| ≤
            1 / 20 := by
      refine le_of_mul_le_mul_right ?_ (mul_pos (by norm_num : (0 : ℚ) < 10) hu)
      linarith
    rw [hs]
    exact round_eq (den_scale_pos hd (by decide) _) (by linarith) fun h => by linarith

end

end Ratio

end BenchLog.Decimal
