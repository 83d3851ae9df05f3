import BenchLog.Proofs.Decimal.Order

/-! Rounding to the parts of a floating-point value.
A significand with a round and a sticky bit stands for a rational number between it and the next
one; shifting keeps that, so that the rounded significand is the nearest one to the quotient of
the exact result and the unit of its binade.
-/

open Float.Model Float.Model.UnpackedFloat

namespace BenchLog.Decimal

-----------------------------------------------------------------------------------------
-- Significands with residual bits
-----------------------------------------------------------------------------------------

/-- The rational number lies where the residual bits of the significand say. -/
def Represents : ExtendedMantissa → ℚ → Prop
  | ⟨m, false, false⟩, x => x = m
  | ⟨m, false, true⟩, x => m < x ∧ x < m + 1 / 2
  | ⟨m, true, false⟩, x => x = m + 1 / 2
  | ⟨m, true, true⟩, x => m + 1 / 2 < x ∧ x < m + 1

section

variable {em : ExtendedMantissa} {x : ℚ}

theorem Represents.bounds (h : Represents em x)
    : (em.mantissa : ℚ) ≤ x ∧ x < em.mantissa + 1 := by
  rcases em with ⟨m, _ | _, _ | _⟩ <;> simp only [Represents] at h ⊢ <;> constructor <;> linarith

/-- Dropping the last bit halves the number, by the cases of the three lowest bits. -/
theorem Represents.shiftRightOne (h : Represents em x)
    : Represents em.shiftRightOne (x / 2) := by
  rcases em with ⟨m, r, s⟩
  have hm : (m : ℚ) = 2 * (m / 2 : Nat) + (m % 2 : Nat) := by
    exact_mod_cast (Nat.div_add_mod m 2).symm
  rcases Nat.mod_two_eq_zero_or_one m with hbit | hbit
  · rw [hbit, Nat.cast_zero] at hm
    have hshift : ExtendedMantissa.shiftRightOne ⟨m, r, s⟩ = ⟨m / 2, false, r || s⟩ := by
      simp [ExtendedMantissa.shiftRightOne, hbit]
    rw [hshift]
    cases r <;> cases s <;> simp only [Represents, Bool.or_false, Bool.or_true] at h ⊢
    · linarith
    · constructor <;> linarith
    · constructor <;> linarith
    · constructor <;> linarith
  · rw [hbit, Nat.cast_one] at hm
    have hshift : ExtendedMantissa.shiftRightOne ⟨m, r, s⟩ = ⟨m / 2, true, r || s⟩ := by
      simp [ExtendedMantissa.shiftRightOne, hbit]
    rw [hshift]
    cases r <;> cases s <;> simp only [Represents, Bool.or_false, Bool.or_true] at h ⊢
    · linarith
    · constructor <;> linarith
    · constructor <;> linarith
    · constructor <;> linarith

theorem Represents.shiftRight (h : Represents em x) (k : Nat)
    : Represents (em >>> k) (x / 2 ^ k) := by
  induction k with
  | zero => simpa [HShiftRight.hShiftRight, Nat.repeat] using h
  | succ k ih =>
      have hnext := ih.shiftRightOne
      rwa [div_div, ← pow_succ] at hnext

/-- The rounded significand is a nearest natural number. -/
theorem Represents.abs_roundedMantissa_sub_le (h : Represents em x)
    : |(em.roundedMantissa : ℚ) - x| ≤ 1 / 2 := by
  rcases em with ⟨m, _ | _, _ | _⟩ <;>
    simp only [Represents, ExtendedMantissa.roundedMantissa, ExtendedMantissa.accuracy,
      Accuracy.roundToNearestEven] at h ⊢
  · rw [abs_le]
    constructor <;> linarith
  · rw [abs_le]
    constructor <;> linarith
  · rcases Nat.mod_two_eq_zero_or_one m with hbit | hbit <;> rw [hbit, abs_le] <;>
      push_cast <;> constructor <;> linarith
  · rw [abs_le]
    push_cast
    constructor <;> linarith

/-- What is no more than half is rounded to zero. -/
theorem Represents.roundedMantissa_eq_zero (h : Represents em x) (hx : x ≤ 1 / 2)
    : em.roundedMantissa = 0 := by
  have hm : em.mantissa = 0 := by
    have hlt : (em.mantissa : ℚ) < 1 := by linarith [h.bounds.1]
    exact Nat.lt_one_iff.mp (by exact_mod_cast hlt)
  rcases em with ⟨m, _ | _, _ | _⟩ <;> cases hm
  · rfl
  · rfl
  · rfl
  · simp only [Represents, Nat.cast_zero] at h
    linarith

theorem represents_exact (m : Nat)
    : Represents (ExtendedMantissa.ofMantissaAndAccuracy m .exact) m :=
  rfl

/-- The accuracy of a quotient of natural numbers says where the quotient lies. -/
theorem represents_quotient {n : Nat} (hn : 0 < n) (m : Nat)
    : Represents (ExtendedMantissa.ofMantissaAndAccuracy (m / n) (accuracyOfFraction (m % n) n))
        (m / n) := by
  have hn' : (0 : ℚ) < n := by exact_mod_cast hn
  have hm : (m : ℚ) / n = (m / n : Nat) + (m % n : Nat) / n := by
    rw [eq_comm, ← mul_right_inj' hn'.ne', mul_add, mul_div_cancel₀ _ hn'.ne',
      mul_div_cancel₀ _ hn'.ne']
    exact_mod_cast Nat.div_add_mod m n
  have hlt : ((m % n : Nat) : ℚ) < n := by exact_mod_cast Nat.mod_lt m hn
  rw [hm]
  unfold accuracyOfFraction
  split
  · next hzero => simp [Represents, ExtendedMantissa.ofMantissaAndAccuracy, hzero]
  · next hzero =>
      have hpos : (0 : ℚ) < (m % n : Nat) := by exact_mod_cast Nat.pos_of_ne_zero hzero
      have hfraction : (0 : ℚ) < (m % n : Nat) / n := div_pos hpos hn'
      cases hc : compare (2 * (m % n)) n with
      | lt =>
          have hhalf : 2 * ((m % n : Nat) : ℚ) < n := by exact_mod_cast compare_lt_iff_lt.mp hc
          have hdiv : ((m % n : Nat) : ℚ) / n < 1 / 2 := by
            rw [div_lt_iff₀ hn']
            linarith
          exact ⟨by linarith, by linarith⟩
      | eq =>
          have hhalf : 2 * ((m % n : Nat) : ℚ) = n := by exact_mod_cast compare_eq_iff_eq.mp hc
          have hdiv : ((m % n : Nat) : ℚ) / n = 1 / 2 := by
            rw [div_eq_iff hn'.ne']
            linarith
          exact by rw [hdiv]; rfl
      | gt =>
          have hhalf : (n : ℚ) < 2 * (m % n : Nat) := by exact_mod_cast compare_gt_iff_gt.mp hc
          have hdiv : 1 / 2 < ((m % n : Nat) : ℚ) / n := by
            rw [lt_div_iff₀ hn']
            linarith
          have hone : ((m % n : Nat) : ℚ) / n < 1 := (div_lt_one hn').mpr hlt
          exact ⟨by linarith, by linarith⟩

end

-----------------------------------------------------------------------------------------
-- The nearest significand
-----------------------------------------------------------------------------------------

/-- The significand is nearest to the rational number in units of the exponent, which is that of
its binade or the least one. -/
structure Rounded (v : ℚ) (r : Nat) (t : Int) : Prop where
  least : minExponent ≤ t
  normal : minExponent < t → normalBound * 2 ^ t ≤ v
  bounded : v < 2 * normalBound * 2 ^ t
  near : |r * 2 ^ t - v| ≤ 2 ^ t / 2
  tiny : v ≤ 2 ^ t / 2 → r = 0

/-- The parts of a significand that may have been rounded up to the next binade. -/
def ofSignificand (s : Sign) (r : Nat) (t : Int) : UnpackedFloat :=
  if h : r = 0 then .zero s
  else if r < 2 * normalBound then .finite s r t (Nat.pos_of_ne_zero h)
  else .finite s normalBound (t + 1) (by decide)

theorem targetExponent_eq (m : Nat) (e : Int)
    : Format.binary64.targetExponent (totalExponent m e) = max (m.log2 + e - 52) minExponent := by
  simp only [Format.targetExponent, totalExponent, Format.mantissaBits, Format.minExponent,
    minExponent]
  omega

section

variable {v : ℚ} {r : Nat} {t : Int}

theorem Rounded.le_bound (h : Rounded v r t)
    : r ≤ 2 * normalBound := by
  have ht : (0 : ℚ) < 2 ^ t := zpow_pos (by norm_num) t
  have hlt : (r : ℚ) * 2 ^ t < (2 * normalBound + 1) * 2 ^ t := by
    have hnear := (abs_le.mp h.near).2
    linarith [h.bounded]
  have hr : (r : ℚ) < 2 * normalBound + 1 := lt_of_mul_lt_mul_right hlt ht.le
  exact Nat.lt_succ_iff.mp (by exact_mod_cast hr)

/-- Above the least exponent the significand is a normal one. -/
theorem Rounded.bound_le (h : Rounded v r t) (ht : minExponent < t)
    : normalBound ≤ r := by
  have hpos : (0 : ℚ) < 2 ^ t := zpow_pos (by norm_num) t
  have hlt : (normalBound : ℚ) * 2 ^ t < (r + 1) * 2 ^ t := by
    have hnear := (abs_le.mp h.near).1
    linarith [h.normal ht]
  have hr : (normalBound : ℚ) < r + 1 := lt_of_mul_lt_mul_right hlt hpos.le
  exact Nat.lt_succ_iff.mp (by exact_mod_cast hr)

/-- A number above half the least unit does not vanish. -/
theorem Rounded.pos_iff (h : Rounded v r t)
    : 0 < r ↔ 2 ^ minExponent / 2 < v := by
  constructor
  · intro hpos
    by_contra hle
    have hleast : (2 : ℚ) ^ minExponent ≤ 2 ^ t := zpow_le_zpow_right₀ (by norm_num) h.least
    exact hpos.ne' (h.tiny (by linarith))
  · intro hlt
    by_contra hzero
    obtain rfl : r = 0 := by omega
    have ht : t = minExponent := by
      by_contra hne
      have := h.bound_le (lt_of_le_of_ne h.least (Ne.symm hne))
      exact absurd this (by decide)
    have hnear := (abs_le.mp h.near).1
    rw [Nat.cast_zero, zero_mul, ht] at hnear
    linarith

/-- A significand in its range stays as it is, and twice the least normal one is halved. -/
theorem shiftToTargetExponent_of_le (hr : r ≤ 2 * normalBound) (ht : minExponent ≤ t)
    : shiftToTargetExponent Format.binary64 r t .exact =
        if r < 2 * normalBound then (⟨r, false, false⟩, t)
        else (⟨normalBound, false, false⟩, t + 1) := by
  unfold shiftToTargetExponent
  rw [targetExponent_eq]
  split
  · next hlt =>
      have hlog : r.log2 ≤ 52 := by
        rcases Nat.eq_zero_or_pos r with rfl | hpos
        · decide
        · exact Nat.lt_succ_iff.mp ((Nat.log2_lt hpos.ne').mpr hlt)
      have hshift : (max (r.log2 + t - 52) minExponent - t).toNat = 0 := by omega
      simp only [shiftToExponent, hshift, Nat.cast_zero, add_zero]
      rfl
  · next hlt =>
      obtain rfl : r = 2 * normalBound := by omega
      have hlog : (2 * normalBound).log2 = 53 := by decide
      have hshift : (max ((2 * normalBound).log2 + t - 52) minExponent - t).toNat = 1 := by
        rw [hlog]
        omega
      simp only [shiftToExponent, hshift]
      rfl

end

/-- Rounding finds the nearest significand at the exponent of the binade, by shifting to it first
and once more if the significand leaves its range. -/
theorem exists_rounded {m : Nat} {e : Int} {a : Accuracy} {x : ℚ}
    (h : Represents (ExtendedMantissa.ofMantissaAndAccuracy m a) x)
    (he : 52 ≤ m.log2 ∨ e ≤ minExponent) (s : Sign)
    : ∃ r t,
        Rounded (x * 2 ^ e) r t
        ∧ roundWithAccuracy Format.binary64 s m e a = ofSignificand s r t := by
  obtain ⟨t, ht⟩ : ∃ t, t = max (m.log2 + e - 52) minExponent := ⟨_, rfl⟩
  obtain ⟨k, hk⟩ : ∃ k : Nat, t = e + k := ⟨(t - e).toNat, by omega⟩
  have hshift
      : shiftToTargetExponent Format.binary64 m e a =
          (ExtendedMantissa.ofMantissaAndAccuracy m a >>> k, t) := by
    have htoNat : (t - e).toNat = k := by omega
    unfold shiftToTargetExponent
    rw [targetExponent_eq, ← ht, shiftToExponent, htoNat, hk]
  have hmantissa : (ExtendedMantissa.ofMantissaAndAccuracy m a).mantissa = m := by
    rcases a with _ | (_ | _ | _) <;> rfl
  obtain ⟨hlow, hhigh⟩ := h.bounds
  rw [hmantissa] at hlow hhigh
  have hem := h.shiftRight k
  have htwo : (0 : ℚ) < 2 ^ k := pow_pos (by norm_num) k
  have hpos : (0 : ℚ) < 2 ^ t := zpow_pos (by norm_num) t
  have hscale : x * 2 ^ e = x / 2 ^ k * 2 ^ t := by
    rw [hk, zpow_add₀ (by norm_num), zpow_natCast]
    field_simp
  have hrounded
      : Rounded (x * 2 ^ e) (ExtendedMantissa.ofMantissaAndAccuracy m a >>> k).roundedMantissa
          t := by
    rw [hscale]
    refine ⟨ht ▸ le_max_right _ _, fun hlt => ?_, ?_, ?_, fun hle => ?_⟩
    · have hlog : m.log2 = 52 + k := by omega
      have hm : 2 ^ (52 + k) ≤ m := hlog ▸ Nat.log2_self_le (by rintro rfl; simp at hlog; omega)
      have hx : (normalBound : ℚ) * 2 ^ k ≤ x := by
        rw [pow_add] at hm
        exact le_trans (by exact_mod_cast hm) hlow
      exact mul_le_mul_of_nonneg_right ((le_div_iff₀ htwo).mpr hx) hpos.le
    · have hm : m + 1 ≤ 2 ^ (53 + k) :=
        le_trans Nat.lt_log2_self (Nat.pow_le_pow_right (by decide) (by omega))
      have hx : x < 2 * normalBound * 2 ^ k := by
        rw [pow_add] at hm
        exact lt_of_lt_of_le hhigh (by exact_mod_cast hm)
      exact mul_lt_mul_of_pos_right ((div_lt_iff₀ htwo).mpr hx) hpos
    · have hnear := hem.abs_roundedMantissa_sub_le
      rw [← sub_mul, abs_mul, abs_of_pos hpos]
      linarith [mul_le_mul_of_nonneg_right hnear hpos.le]
    · apply hem.roundedMantissa_eq_zero
      apply le_of_mul_le_mul_right _ hpos
      linarith
  refine ⟨_, t, hrounded, ?_⟩
  unfold roundWithAccuracy
  rw [hshift]
  dsimp only
  rw [shiftToTargetExponent_of_le hrounded.le_bound hrounded.least]
  generalize (ExtendedMantissa.ofMantissaAndAccuracy m a >>> k).roundedMantissa = r
  unfold ofSignificand
  by_cases hzero : r = 0
  · simp [hzero, normalBound]
  · by_cases hlt : r < 2 * normalBound
    · simp [hzero, hlt]
    · simp only [hzero, hlt, ↓reduceIte, ↓reduceDIte]
      exact dif_neg (by decide)

end BenchLog.Decimal
