import BenchLog.Proofs.Decimal.Packing
import BenchLog.Proofs.Decimal.Rounded

/-! Arithmetic of floating-point values in terms of the numbers they stand for.
Sums and differences of positive finite values are the exact results rounded once. They have no
part below the least unit, so that the error is relative and no difference vanishes by rounding.
-/

open Float.Model Float.Model.UnpackedFloat

namespace BenchLog.Decimal

-----------------------------------------------------------------------------------------
-- Values that are rounded numbers
-----------------------------------------------------------------------------------------

/-- The unit of the greatest finite values. -/
def greatestUnit : ℚ :=
  2 ^ (971 : Int)

/-- The least power of two beyond all finite values. -/
def overflowBound : ℚ :=
  2 * normalBound * greatestUnit

theorem two_zpow_pos (t : Int)
    : (0 : ℚ) < 2 ^ t :=
  zpow_pos (by norm_num) t

theorem greatestUnit_pos
    : 0 < greatestUnit :=
  two_zpow_pos 971

theorem two_zpow_le_greatestUnit {t : Int} (h : t ≤ 971)
    : 2 ^ t ≤ greatestUnit :=
  zpow_le_zpow_right₀ (by norm_num) h

theorem two_mul_greatestUnit_le {t : Int} (h : 971 < t)
    : 2 * greatestUnit ≤ 2 ^ t := by
  have hle : (2 : ℚ) ^ ((971 : Int) + 1) ≤ 2 ^ t := zpow_le_zpow_right₀ (by norm_num) h
  rw [zpow_add_one₀ (by norm_num)] at hle
  rw [greatestUnit, mul_comm]
  exact hle

/-- The value is the rational number with a sign, rounded. -/
def RoundsTo (s : Sign) (v : ℚ) (y : Float) : Prop :=
  ∃ r t, Rounded v r t ∧ y.toModel = Float.Model.pack (ofSignificand s r t)

section

variable {v : ℚ} {r : Nat} {t : Int} {s : Sign} {x y z : Float}

/-- Nearest to a multiple of its unit is the multiple itself. -/
theorem Rounded.eq_of_multiple (h : Rounded v r t) {k : Int} (hv : v = k * 2 ^ t)
    : r * 2 ^ t = v := by
  have hnear : |(r : ℚ) - k| * 2 ^ t ≤ 1 / 2 * 2 ^ t := by
    rw [← abs_of_pos (two_zpow_pos t), ← abs_mul, sub_mul, ← hv, abs_of_pos (two_zpow_pos t)]
    linarith [h.near]
  have hle : |(r : ℚ) - k| ≤ 1 / 2 := le_of_mul_le_mul_right hnear (two_zpow_pos t)
  have hint : |((r : Int) - k)| < 1 := by
    have hlt : |(((r : Int) - k : Int) : ℚ)| < 1 := by
      push_cast
      linarith
    exact_mod_cast hlt
  have heq : (r : Int) = k := by
    have := Int.abs_lt_one_iff.mp hint
    omega
  rw [hv, ← heq, Int.cast_natCast]

/-- The parts of a rounded significand are canonical and stand for it, or are packed as an
infinity and the significand is beyond all finite numbers. -/
theorem Rounded.ofSignificand_cases (h : Rounded v r t) (s : Sign)
    : (Canonical (ofSignificand s r t)
        ∧ (ofSignificand s r t).isFinite = true
        ∧ unpackedValue (ofSignificand s r t) = s.apply r * 2 ^ t)
      ∨ (overflowBound ≤ r * 2 ^ t
        ∧ (Float.Model.pack (ofSignificand s r t)).unpack = .infinity s) := by
  unfold ofSignificand
  split
  · next hzero =>
      subst hzero
      refine Or.inl ⟨trivial, rfl, ?_⟩
      cases s <;> simp [unpackedValue, Sign.apply]
  · next hpos =>
      split
      · next hlt =>
          by_cases ht : t ≤ 971
          · exact Or.inl ⟨⟨Nat.pos_of_ne_zero hpos, hlt, h.least, ht, h.bound_le⟩, rfl, rfl⟩
          · refine Or.inr ⟨?_, unpack_pack_of_lt s (Nat.pos_of_ne_zero hpos) (by omega)⟩
            have hr : (normalBound : ℚ) ≤ r := by
              exact_mod_cast h.bound_le (by simp only [minExponent]; omega)
            have hunit := two_mul_greatestUnit_le (lt_of_not_ge ht)
            calc
              overflowBound = normalBound * (2 * greatestUnit) := by
                rw [overflowBound]
                ring
              _ ≤ r * 2 ^ t := mul_le_mul hr hunit (by linarith [greatestUnit_pos]) (by linarith)
      · next hlt =>
          obtain rfl : r = 2 * normalBound := by
            have := h.le_bound
            omega
          by_cases ht : t < 971
          · refine Or.inl ⟨⟨by decide, by decide, ?_, by omega, fun _ => le_refl _⟩, rfl, ?_⟩
            · have := h.least
              omega
            · simp only [unpackedValue]
              rw [zpow_add_one₀ (by norm_num)]
              cases s <;> simp only [Sign.apply] <;> push_cast <;> ring
          · refine Or.inr ⟨?_, unpack_pack_of_lt s (by decide) (by omega)⟩
            have ht : greatestUnit ≤ 2 ^ t := zpow_le_zpow_right₀ (by norm_num) (by omega)
            rw [overflowBound, Nat.cast_mul, Nat.cast_ofNat]
            exact mul_le_mul_of_nonneg_left ht (by positivity)

/-- A significand stays below the bound by at least the greatest unit. -/
theorem IsFinite.value_le_greatest {m : Nat} {e : Int} (h : IsFinite m e)
    : m * 2 ^ e ≤ (2 * normalBound - 1) * greatestUnit := by
  have hrange : (0 : ℚ) ≤ 2 * normalBound - 1 := by norm_num [normalBound]
  have hle : (m : ℚ) ≤ 2 * normalBound - 1 := by
    have hm : m + 1 ≤ 2 * normalBound := h.bounded
    have hm : (m : ℚ) + 1 ≤ 2 * normalBound := by exact_mod_cast hm
    linarith
  exact mul_le_mul hle (two_zpow_le_greatestUnit h.greatest) (two_zpow_pos e).le hrange

theorem value_le (x : Float)
    : value x ≤ (2 * normalBound - 1) * greatestUnit := by
  have hrange : (0 : ℚ) ≤ 2 * normalBound - 1 := by norm_num [normalBound]
  have hbound : 0 ≤ (2 * normalBound - 1) * greatestUnit := mul_nonneg hrange greatestUnit_pos.le
  have hcanonical := canonical_unpack x.toModel
  unfold value
  cases hx : x.toModel.unpack with
  | infinity | notANumber | zero => exact hbound
  | finite s m e hm =>
      rw [hx] at hcanonical
      have hfinite : IsFinite m e := hcanonical
      cases s with
      | negative =>
          have hpos := hfinite.value_pos
          simp only [unpackedValue, Sign.apply, Int.cast_neg, Int.cast_natCast, neg_mul]
          linarith
      | positive =>
          simp only [unpackedValue, Sign.apply, Int.cast_natCast]
          exact hfinite.value_le_greatest

/-- What is no more than some finite value is rounded to a finite value. -/
theorem RoundsTo.isFinite (h : RoundsTo s v y) (hv : v ≤ value x)
    : y.isFinite = true := by
  obtain ⟨r, t, hr, hy⟩ := h
  rcases hr.ofSignificand_cases s with ⟨hc, hf, -⟩ | ⟨hover, -⟩
  · rw [Float.isFinite, Float.Model.isFinite, hy, unpack_pack hc, hf]
  · exfalso
    have hle := hv.trans (value_le x)
    have hpos := greatestUnit_pos
    rw [overflowBound] at hover
    by_cases ht : t ≤ 971
    · have hunit := two_zpow_le_greatestUnit ht
      have hnear := (abs_le.mp hr.near).2
      linarith
    · have hunit := two_mul_greatestUnit_le (lt_of_not_ge ht)
      have hleast : minExponent < t := by
        simp only [minExponent]
        omega
      have hb : (0 : ℚ) ≤ normalBound := Nat.cast_nonneg _
      have hnormal := (mul_le_mul_of_nonneg_left hunit hb).trans (hr.normal hleast)
      linarith

theorem RoundsTo.cases (h : RoundsTo s v y)
    : ∃ r t,
        Rounded v r t
        ∧ (y.isFinite = true ∧ value y = s.apply r * 2 ^ t
          ∨ overflowBound ≤ r * 2 ^ t ∧ y.toModel.unpack = .infinity s) := by
  obtain ⟨r, t, hr, hy⟩ := h
  refine ⟨r, t, hr, ?_⟩
  rcases hr.ofSignificand_cases s with ⟨hc, hf, hv⟩ | ⟨hover, hi⟩
  · refine Or.inl ⟨?_, ?_⟩
    · rw [Float.isFinite, Float.Model.isFinite, hy, unpack_pack hc, hf]
    · rw [value, hy, unpack_pack hc, hv]
  · exact Or.inr ⟨hover, hy ▸ hi⟩

theorem not_isFinite_of_infinity (h : y.toModel.unpack = .infinity s)
    : ¬ y.isFinite = true := by
  rw [Float.isFinite, Float.Model.isFinite, h]
  exact Bool.false_ne_true

/-- An exact result that is a multiple of the least unit is rounded with a relative error. -/
theorem RoundsTo.abs_value_sub_le (h : RoundsTo .positive v y) (hy : y.isFinite = true) {k : Int}
    (hk : v = k * 2 ^ minExponent)
    : |value y - v| ≤ v * 2 ^ (-53 : Int) := by
  obtain ⟨r, t, hr, ⟨-, hvalue⟩ | ⟨-, hinfinity⟩⟩ := h.cases
  · rw [hvalue, Sign.apply, Int.cast_natCast]
    rcases hr.least.eq_or_lt with heq | hlt
    · have hsame := hr.eq_of_multiple (heq ▸ hk)
      have hv : 0 ≤ v := by
        rw [← hsame]
        exact mul_nonneg (Nat.cast_nonneg r) (two_zpow_pos t).le
      rw [hsame, sub_self, abs_zero]
      exact mul_nonneg hv (two_zpow_pos _).le
    · have hnormal := mul_le_mul_of_nonneg_right (hr.normal hlt) (two_zpow_pos (-53)).le
      have hunit : (normalBound : ℚ) * 2 ^ t * 2 ^ (-53 : Int) = 2 ^ t / 2 := by
        norm_num [normalBound]
        ring
      exact hr.near.trans (hunit ▸ hnormal)
  · exact absurd hy (not_isFinite_of_infinity hinfinity)

-----------------------------------------------------------------------------------------
-- Positive values
-----------------------------------------------------------------------------------------

theorem unpack_zero
    : (0 : Float).toModel.unpack = .zero .positive := by
  have hzero : (0 : Float) = floatOfCode false 0 := by decide
  rw [hzero]
  rfl

/-- Positive are the positive infinity and the values that stand for positive numbers. -/
theorem zero_lt_iff
    : 0 < x ↔ x.toModel.unpack = .infinity .positive ∨ 0 < value x := by
  have hcanonical := canonical_unpack x.toModel
  rw [lt_iff_unpack_lt, unpack_zero, value]
  cases hx : x.toModel.unpack with
  | infinity s =>
      cases s <;> simp [UnpackedFloat.lt, UnpackedFloat.compare, unpackedValue]
  | notANumber => simp [UnpackedFloat.lt, UnpackedFloat.compare, unpackedValue]
  | zero s => simp [UnpackedFloat.lt, UnpackedFloat.compare, unpackedValue]
  | finite s m e hm =>
      rw [hx] at hcanonical
      have hpos := IsFinite.value_pos hcanonical
      cases s with
      | negative =>
          simp [UnpackedFloat.lt, UnpackedFloat.compare, unpackedValue, Sign.apply, hpos.le]
      | positive =>
          simp [UnpackedFloat.lt, UnpackedFloat.compare, unpackedValue, Sign.apply, hpos]

theorem zero_lt_iff_of_isFinite (hx : x.isFinite = true)
    : 0 < x ↔ 0 < value x := by
  rw [zero_lt_iff, or_iff_right]
  exact fun h => not_isFinite_of_infinity h hx

theorem RoundsTo.value_nonpos (h : RoundsTo .negative v y)
    : value y ≤ 0 := by
  obtain ⟨r, t, -, ⟨-, hvalue⟩ | ⟨-, hinfinity⟩⟩ := h.cases
  · rw [hvalue, Sign.apply, Int.cast_neg, Int.cast_natCast, neg_mul]
    exact neg_nonpos.mpr (mul_nonneg (Nat.cast_nonneg r) (two_zpow_pos t).le)
  · rw [value, hinfinity]
    exact le_refl 0

theorem RoundsTo.not_zero_lt (h : RoundsTo .negative v y)
    : ¬ 0 < y := by
  have hvalue := h.value_nonpos
  rw [Decimal.zero_lt_iff]
  obtain ⟨r, t, -, ⟨hy, -⟩ | ⟨-, hinfinity⟩⟩ := h.cases
  · rintro (hp | hp)
    · exact not_isFinite_of_infinity hp hy
    · exact hp.not_ge hvalue
  · rintro (hp | hp)
    · cases hinfinity.symm.trans hp
    · exact hp.not_ge hvalue

/-- A rounded positive number is positive exactly if it is more than half the least unit. -/
theorem RoundsTo.zero_lt_iff (h : RoundsTo .positive v y)
    : 0 < y ↔ 2 ^ minExponent / 2 < v := by
  obtain ⟨r, t, hr, hcases⟩ := h.cases
  have hunit := two_zpow_pos t
  rw [← hr.pos_iff]
  rcases hcases with ⟨hy, hvalue⟩ | ⟨hover, hinfinity⟩
  · rw [zero_lt_iff_of_isFinite hy, hvalue, Sign.apply, Int.cast_natCast,
      mul_pos_iff_of_pos_right hunit, Nat.cast_pos]
  · refine iff_of_true (Decimal.zero_lt_iff.mpr (Or.inl hinfinity)) ?_
    have hpos : 0 < (r : ℚ) * 2 ^ t := by
      refine lt_of_lt_of_le (mul_pos ?_ greatestUnit_pos) hover
      norm_num [normalBound]
    exact_mod_cast (mul_pos_iff_of_pos_right hunit).mp hpos

-----------------------------------------------------------------------------------------
-- Sums and differences
-----------------------------------------------------------------------------------------

/-- A positive finite value has the positive parts of a significand in its range. -/
theorem exists_parts (hx : x.isFinite = true) (hpos : 0 < x)
    : ∃ m e,
        ∃ h : IsFinite m e,
          x.toModel.unpack = .finite .positive m e h.positive ∧ value x = m * 2 ^ e := by
  have hcanonical := canonical_unpack x.toModel
  rw [zero_lt_iff_of_isFinite hx, value] at hpos
  rw [value]
  cases hu : x.toModel.unpack with
  | infinity | notANumber | zero =>
      rw [hu] at hpos
      exact absurd hpos (lt_irrefl 0)
  | finite s m e hm =>
      rw [hu] at hpos hcanonical
      have hfinite : IsFinite m e := hcanonical
      cases s with
      | positive => exact ⟨m, e, hfinite, rfl, by simp [unpackedValue, Sign.apply]⟩
      | negative =>
          have hvalue := hfinite.value_pos
          simp only [unpackedValue, Sign.apply, Int.cast_neg, Int.cast_natCast, neg_mul] at hpos
          linarith

theorem exists_multiple (x : Float)
    : ∃ k : Int, value x = k * 2 ^ minExponent := by
  have hcanonical := canonical_unpack x.toModel
  rw [value]
  cases hu : x.toModel.unpack with
  | infinity | notANumber | zero => exact ⟨0, by simp [unpackedValue]⟩
  | finite s m e hm =>
      rw [hu] at hcanonical
      have hleast : minExponent ≤ e := IsFinite.least hcanonical
      obtain ⟨k, rfl⟩ : ∃ k : Nat, e = k + minExponent := ⟨(e - minExponent).toNat, by omega⟩
      refine ⟨s.apply m * 2 ^ k, ?_⟩
      rw [unpackedValue, zpow_add₀ (by norm_num), zpow_natCast]
      push_cast
      ring

/-- Sums and differences have no part below the least unit. -/
theorem exists_multiple_add_sub (x y : Float)
    : (∃ k : Int, value x + value y = k * 2 ^ minExponent)
      ∧ ∃ k : Int, value x - value y = k * 2 ^ minExponent := by
  obtain ⟨k, hk⟩ := exists_multiple x
  obtain ⟨l, hl⟩ := exists_multiple y
  rw [hk, hl]
  constructor
  · exact ⟨k + l, by push_cast; ring⟩
  · exact ⟨k - l, by push_cast; ring⟩

theorem shiftLeft_value (m k : Nat) (e : Int)
    : ((m <<< k : Nat) : ℚ) * 2 ^ (e - k) = m * 2 ^ e := by
  have he : (2 : ℚ) ^ e = 2 ^ (e - k) * 2 ^ k := by
    rw [← zpow_natCast, ← zpow_add₀ (by norm_num), sub_add_cancel]
  rw [Nat.shiftLeft_eq, he]
  push_cast
  ring

theorem log2_shiftLeft {m : Nat} (hm : 0 < m) (k : Nat)
    : (m <<< k).log2 = m.log2 + k := by
  have hlow := Nat.mul_le_mul_right (2 ^ k) (Nat.log2_self_le hm.ne')
  have hhigh := Nat.mul_lt_mul_of_pos_right (@Nat.lt_log2_self m) (Nat.two_pow_pos k)
  rw [← pow_add] at hlow hhigh
  rw [Nat.shiftLeft_eq, Nat.log2_eq_iff (Nat.mul_pos hm (Nat.two_pow_pos k)).ne']
  exact ⟨hlow, lt_of_lt_of_eq hhigh (by ring)⟩

/-- Rounding shifts to the left first if the significand is short. -/
theorem roundsTo_of_round {m : Nat} (hm : 0 < m) (e : Int)
    (hy : y.toModel = Float.Model.pack (UnpackedFloat.round Format.binary64 s m e))
    : RoundsTo s (m * 2 ^ e) y := by
  obtain ⟨f, hf⟩ : ∃ f, f = max (m.log2 + e - 52) minExponent := ⟨_, rfl⟩
  obtain ⟨k, hk⟩ : ∃ k : Nat, k = (e - f).toNat := ⟨_, rfl⟩
  have he : 52 ≤ (m <<< k).log2 ∨ e - k ≤ minExponent := by
    rw [log2_shiftLeft hm]
    omega
  obtain ⟨r, t, hr, hround⟩ := exists_rounded (represents_exact (m <<< k)) he s
  refine ⟨r, t, shiftLeft_value m k e ▸ hr, ?_⟩
  rw [hy, ← hround, UnpackedFloat.round, targetExponent_eq, ← hf, hk]
  rfl

/-- The parts of a sum or a difference are rounded from those at the lesser exponent. -/
theorem roundsTo_of_normalize {k : Int} {e : Int} {zero : Sign}
    (hy : y.toModel = Float.Model.pack (UnpackedFloat.normalize Format.binary64 k e zero))
    : (0 < k → RoundsTo .positive (k * 2 ^ e) y)
      ∧ (k = 0 → y.toModel.unpack = .zero zero)
      ∧ (k < 0 → RoundsTo .negative (-k * 2 ^ e) y) := by
  refine ⟨fun hk => ?_, fun hk => ?_, fun hk => ?_⟩
  · have hvalue : ((k.toNat : Nat) : ℚ) = k := by
      exact_mod_cast Int.toNat_of_nonneg hk.le
    rw [← hvalue]
    apply roundsTo_of_round (by omega)
    rw [hy, UnpackedFloat.normalize, compare_gt_iff_gt.mpr hk]
  · rw [hy, UnpackedFloat.normalize, compare_eq_iff_eq.mpr hk]
    exact unpack_pack trivial
  · have hvalue : (((-k).toNat : Nat) : ℚ) = -k := by
      exact_mod_cast Int.toNat_of_nonneg (by omega : 0 ≤ -k)
    rw [← hvalue]
    apply roundsTo_of_round (by omega)
    rw [hy, UnpackedFloat.normalize, compare_lt_iff_lt.mpr hk]

/-- A significand in units of a lesser exponent. -/
theorem aligned_value (m : Nat) {e g : Int} (h : g ≤ e)
    : ((m <<< (e - g).toNat : Nat) : ℚ) * 2 ^ g = m * 2 ^ e := by
  have hg : e - ((e - g).toNat : Int) = g := by omega
  have hvalue := shiftLeft_value m (e - g).toNat e
  rwa [hg] at hvalue

/-- Two positive values have significands at a common exponent, from which their sum and their
difference are rounded. -/
theorem exists_aligned (hx : x.isFinite = true) (hxpos : 0 < x) (hy : y.isFinite = true)
    (hypos : 0 < y)
    : ∃ (m n : Nat) (e : Int),
        value x = m * 2 ^ e
        ∧ value y = n * 2 ^ e
        ∧ (x + y).toModel =
            Float.Model.pack (UnpackedFloat.normalize Format.binary64 (m + n) e .positive)
        ∧ (x - y).toModel =
            Float.Model.pack (UnpackedFloat.normalize Format.binary64 (m - n) e .positive) := by
  obtain ⟨m, e, hm, hxu, hxv⟩ := exists_parts hx hxpos
  obtain ⟨n, f, hn, hyu, hyv⟩ := exists_parts hy hypos
  refine ⟨m <<< (e - min e f).toNat, n <<< (f - min e f).toNat, min e f, ?_, ?_, ?_, ?_⟩
  · rw [hxv, aligned_value m (min_le_left e f)]
  · rw [hyv, aligned_value n (min_le_right e f)]
  · change Float.Model.pack
      (UnpackedFloat.add Format.binary64 x.toModel.unpack y.toModel.unpack) = _
    rw [hxu, hyu]
    rfl
  · change Float.Model.pack
      (UnpackedFloat.sub Format.binary64 x.toModel.unpack y.toModel.unpack) = _
    rw [hxu, hyu]
    rfl

theorem roundsTo_add (hx : x.isFinite = true) (hxpos : 0 < x) (hy : y.isFinite = true)
    (hypos : 0 < y)
    : RoundsTo .positive (value x + value y) (x + y) := by
  obtain ⟨m, n, e, hxv, hyv, hsum, -⟩ := exists_aligned hx hxpos hy hypos
  have hm : 0 < m := by
    rw [zero_lt_iff_of_isFinite hx, hxv, mul_pos_iff_of_pos_right (two_zpow_pos e)] at hxpos
    exact_mod_cast hxpos
  have hvalue : value x + value y = ((m + n : Int) : ℚ) * 2 ^ e := by
    rw [hxv, hyv]
    push_cast
    ring
  rw [hvalue]
  exact (roundsTo_of_normalize hsum).1 (by omega)

/-- A difference is rounded in the direction in which the values differ. -/
theorem roundsTo_sub (hx : x.isFinite = true) (hxpos : 0 < x) (hy : y.isFinite = true)
    (hypos : 0 < y)
    : (value y < value x → RoundsTo .positive (value x - value y) (x - y))
      ∧ (value x ≤ value y → value (x - y) ≤ 0 ∧ ¬ 0 < x - y) := by
  obtain ⟨m, n, e, hxv, hyv, -, hdiff⟩ := exists_aligned hx hxpos hy hypos
  obtain ⟨hpos, hzero, hneg⟩ := roundsTo_of_normalize hdiff
  have he := two_zpow_pos e
  constructor
  · intro hlt
    rw [hxv, hyv] at hlt
    have hmn : (n : ℚ) < m := lt_of_mul_lt_mul_right hlt he.le
    have hvalue : value x - value y = ((m - n : Int) : ℚ) * 2 ^ e := by
      rw [hxv, hyv]
      push_cast
      ring
    rw [hvalue]
    exact hpos (sub_pos.mpr (by exact_mod_cast hmn))
  · intro hle
    rw [hxv, hyv] at hle
    have hmn : (m : ℚ) ≤ n := le_of_mul_le_mul_right hle he
    have hmn : (m : Int) ≤ n := by exact_mod_cast hmn
    rcases hmn.eq_or_lt with heq | hlt
    · have hunpack := hzero (by omega)
      rw [zero_lt_iff, value, hunpack]
      exact ⟨le_refl 0, by simp [unpackedValue]⟩
    · have hrounds := hneg (by omega)
      exact ⟨hrounds.value_nonpos, hrounds.not_zero_lt⟩

/-- No positive value is less than the least unit. -/
theorem two_zpow_le_value (hx : x.isFinite = true) (hxpos : 0 < x)
    : 2 ^ minExponent ≤ value x := by
  obtain ⟨m, e, hm, -, hxv⟩ := exists_parts hx hxpos
  have hone : (1 : ℚ) ≤ m := by exact_mod_cast hm.positive
  have he : (2 : ℚ) ^ minExponent ≤ 2 ^ e := zpow_le_zpow_right₀ (by norm_num) hm.least
  rw [hxv]
  exact le_trans he (le_mul_of_one_le_left (two_zpow_pos e).le hone)

theorem place_of_isFinite (hx : x.isFinite = true)
    : x.isNaN = false ∧ place x = toLex (0, value x) := by
  rw [Float.isFinite, Float.Model.isFinite] at hx
  rw [Float.isNaN, Float.Model.isNaN, place, value]
  cases hu : x.toModel.unpack with
  | infinity | notANumber =>
      rw [hu] at hx
      cases hx
  | zero | finite => exact ⟨rfl, rfl⟩

/-- Finite values are in the order of the numbers they stand for. -/
theorem lt_iff_value_lt (hx : x.isFinite = true) (hy : y.isFinite = true)
    : x < y ↔ value x < value y := by
  obtain ⟨hxn, hxp⟩ := place_of_isFinite hx
  obtain ⟨hyn, hyp⟩ := place_of_isFinite hy
  rw [lt_iff_place_lt hxn hyn, hxp, hyp, Prod.Lex.toLex_lt_toLex]
  simp

/-- Since differences have no part below the least unit, none vanishes by rounding. -/
theorem zero_lt_sub_iff (hx : x.isFinite = true) (hxpos : 0 < x) (hy : y.isFinite = true)
    (hypos : 0 < y)
    : 0 < x - y ↔ y < x := by
  obtain ⟨hgreater, hless⟩ := roundsTo_sub hx hxpos hy hypos
  rw [lt_iff_value_lt hy hx]
  by_cases hlt : value y < value x
  · obtain ⟨-, k, hk⟩ := exists_multiple_add_sub x y
    have hunit := two_zpow_pos minExponent
    have hpos : (0 : ℚ) < k := by
      rw [← sub_pos, hk] at hlt
      exact (mul_pos_iff_of_pos_right hunit).mp hlt
    have hone : (1 : ℚ) ≤ k := by exact_mod_cast hpos
    refine iff_of_true ((hgreater hlt).zero_lt_iff.mpr ?_) hlt
    have hle := mul_le_mul_of_nonneg_right hone hunit.le
    rw [hk]
    linarith
  · exact iff_of_false (hless (not_lt.mp hlt)).2 hlt

theorem unpack_of_not_isFinite (hxpos : 0 < x) (hx : ¬ x.isFinite = true)
    : x.toModel.unpack = .infinity .positive := by
  rw [zero_lt_iff, value] at hxpos
  rw [Float.isFinite, Float.Model.isFinite] at hx
  cases hu : x.toModel.unpack with
  | infinity s =>
      rw [hu] at hxpos
      rcases hxpos with h | h
      · exact h
      · exact absurd h (lt_irrefl 0)
  | notANumber =>
      rw [hu] at hxpos
      rcases hxpos with h | h
      · cases h
      · exact absurd h (lt_irrefl 0)
  | zero | finite =>
      rw [hu] at hx
      exact absurd rfl hx

/-- An infinity with anything positive added is infinite. -/
theorem unpack_add_of_not_isFinite (hxpos : 0 < x) (hypos : 0 < y)
    (h : ¬ (x.isFinite = true ∧ y.isFinite = true))
    : (x + y).toModel.unpack = .infinity .positive := by
  have hparts
      : UnpackedFloat.add Format.binary64 x.toModel.unpack y.toModel.unpack =
          .infinity .positive := by
    by_cases hx : x.isFinite = true
    · have hy : ¬ y.isFinite = true := fun hy => h ⟨hx, hy⟩
      obtain ⟨m, e, hm, hxu, -⟩ := exists_parts hx hxpos
      rw [hxu, unpack_of_not_isFinite hypos hy]
      rfl
    · rw [unpack_of_not_isFinite hxpos hx]
      by_cases hy : y.isFinite = true
      · obtain ⟨m, e, hm, hyu, -⟩ := exists_parts hy hypos
        rw [hyu]
        rfl
      · rw [unpack_of_not_isFinite hypos hy]
        rfl
  have hsum
      : (x + y).toModel =
          Float.Model.pack
            (UnpackedFloat.add Format.binary64 x.toModel.unpack y.toModel.unpack) :=
    rfl
  rw [hsum, hparts]
  exact unpack_pack trivial

/-- A sum of positive values is positive, and finite only if both are. -/
theorem zero_lt_add (hxpos : 0 < x) (hypos : 0 < y)
    : 0 < x + y ∧ ((x + y).isFinite = true → x.isFinite = true ∧ y.isFinite = true) := by
  by_cases h : x.isFinite = true ∧ y.isFinite = true
  · refine ⟨(roundsTo_add h.1 hxpos h.2 hypos).zero_lt_iff.mpr ?_, fun _ => h⟩
    have hunit := two_zpow_pos minExponent
    linarith [two_zpow_le_value h.1 hxpos, two_zpow_le_value h.2 hypos]
  · have hsum := unpack_add_of_not_isFinite hxpos hypos h
    exact ⟨zero_lt_iff.mpr (Or.inl hsum), fun hf => absurd hf (not_isFinite_of_infinity hsum)⟩

/-- Nothing positive taken from a finite value leaves the positive infinity. -/
theorem unpack_sub_ne_infinity (hx : x.isFinite = true) (hxpos : 0 < x) (hypos : 0 < y)
    : (x - y).toModel.unpack ≠ .infinity .positive := by
  intro hinfinity
  have hpos : 0 < x - y := zero_lt_iff.mpr (Or.inl hinfinity)
  by_cases hy : y.isFinite = true
  · obtain ⟨hgreater, hless⟩ := roundsTo_sub hx hxpos hy hypos
    have hlt : value y < value x := not_le.mp fun hle => (hless hle).2 hpos
    have hvalue := (zero_lt_iff_of_isFinite hy).mp hypos
    have hfinite := (hgreater hlt).isFinite (by linarith : value x - value y ≤ value x)
    exact not_isFinite_of_infinity hinfinity hfinite
  · obtain ⟨m, e, hm, hxu, -⟩ := exists_parts hx hxpos
    have hdiff
        : (x - y).toModel =
            Float.Model.pack
              (UnpackedFloat.sub Format.binary64 x.toModel.unpack y.toModel.unpack) :=
      rfl
    have hparts
        : UnpackedFloat.sub Format.binary64 x.toModel.unpack y.toModel.unpack =
            .infinity .negative := by
      rw [hxu, unpack_of_not_isFinite hypos hy]
      rfl
    have hcanonical : Canonical (.infinity .negative) := trivial
    rw [hdiff, hparts, unpack_pack hcanonical] at hinfinity
    cases hinfinity

end

end BenchLog.Decimal
