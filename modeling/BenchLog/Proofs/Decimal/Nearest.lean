import BenchLog.Decimal.Shortest
import BenchLog.Proofs.Decimal.Bits
import BenchLog.Proofs.Decimal.Ratio

/-! Rounding to the nearest floating-point number.
Every quotient in the interval of a significand has the code of that significand, and the code of
a value gives its significand back.
-/

namespace BenchLog.Decimal

/-- A significand and an exponent that together are a positive finite number. -/
structure IsFinite (significand : Nat) (exponent : Int) : Prop where
  positive : 0 < significand
  bounded : significand < 2 * normalBound
  least : minExponent ≤ exponent
  greatest : exponent ≤ 971
  /-- Only at the least exponent is a significand below the normal ones. -/
  normal : minExponent < exponent → normalBound ≤ significand

/-- The rational number is one of those that round to the significand. -/
def Interval.Contains (i : Interval) (exponent : Int) (v : ℚ) : Prop :=
  if i.closed then
    i.low * 2 ^ (exponent - 2) ≤ v ∧ v ≤ i.high * 2 ^ (exponent - 2)
  else
    i.low * 2 ^ (exponent - 2) < v ∧ v < i.high * 2 ^ (exponent - 2)

theorem Interval.Contains.bounds {i : Interval} {exponent : Int} {v : ℚ}
    (h : i.Contains exponent v)
    : i.low * 2 ^ (exponent - 2) ≤ v ∧ v ≤ i.high * 2 ^ (exponent - 2) := by
  unfold Contains at h
  split_ifs at h
  · exact h
  · exact ⟨h.1.le, h.2.le⟩

theorem Interval.Contains.strict {i : Interval} {exponent : Int} {v : ℚ}
    (h : i.Contains exponent v) (isOpen : i.closed = false)
    : i.low * 2 ^ (exponent - 2) < v ∧ v < i.high * 2 ^ (exponent - 2) := by
  simpa [Contains, isOpen] using h

theorem Interval.contains_of_lt {i : Interval} {exponent : Int} {v : ℚ}
    (low : i.low * 2 ^ (exponent - 2) < v) (high : v < i.high * 2 ^ (exponent - 2))
    : i.Contains exponent v := by
  unfold Contains
  split_ifs
  · exact ⟨low.le, high.le⟩
  · exact ⟨low, high⟩

theorem Interval.high_ofSignificand (significand : Nat) (exponent : Int)
    : ((ofSignificand significand exponent).high : ℚ) = 4 * significand + 2 := by
  simp [ofSignificand]

/-- Downwards an interval reaches half a unit, or a quarter where the binade begins. -/
theorem Interval.low_ofSignificand {significand : Nat} (exponent : Int) (h : 0 < significand)
    : (4 * significand - 2 : ℚ) ≤ (ofSignificand significand exponent).low
      ∧ ((ofSignificand significand exponent).low : ℚ) ≤ 4 * significand - 1 := by
  have hlow
      : 4 * significand ≤ (ofSignificand significand exponent).low + 2
        ∧ (ofSignificand significand exponent).low + 1 ≤ 4 * significand := by
    simp only [ofSignificand]
    split_ifs <;> omega
  have hle : (4 * significand : ℚ) ≤ (ofSignificand significand exponent).low + 2 := by
    exact_mod_cast hlow.1
  have hge : ((ofSignificand significand exponent).low + 1 : ℚ) ≤ 4 * significand := by
    exact_mod_cast hlow.2
  constructor <;> linarith

theorem four_mul_quarter (exponent : Int)
    : (4 : ℚ) * 2 ^ (exponent - 2) = 2 ^ exponent := by
  rw [zpow_sub₀ (by norm_num)]
  ring

-----------------------------------------------------------------------------------------
-- The code of the nearest number
-----------------------------------------------------------------------------------------

/-- The exponent of the significand is found from the binade of the quotient. -/
theorem nearestCode_eq {r : Ratio} (hn : 0 < r.num) (hd : 0 < r.den) {n : Nat} {e : Int}
    (least : minExponent ≤ e) (high : r.value < 2 ^ (e + 53))
    (low : minExponent < e → 2 ^ (e + 52) ≤ r.value)
    (near : |r.value / 2 ^ e - n| ≤ 1 / 2)
    (tie : |r.value / 2 ^ e - n| = 1 / 2 → n % 2 = 0)
    : nearestCode r = min (codeOf n e) infiniteCode := by
  have he : max (r.exponent 2 - 52) minExponent = e := by
    have hlt : r.exponent 2 < e + 53 :=
      Ratio.exponent_lt hn hd (le_refl 2) (by exact_mod_cast high)
    by_cases hm : minExponent < e
    · have heq : r.exponent 2 = e + 52 := by
        apply Ratio.exponent_eq hn hd (le_refl 2)
        · exact_mod_cast low hm
        · have : e + 52 + 1 = e + 53 := by omega
          rw [this]
          exact_mod_cast high
      omega
    · omega
  have hv : (r.scale 2 (-e)).value = r.value / 2 ^ e := by
    rw [Ratio.value_scale r (by norm_num), zpow_neg, div_eq_mul_inv]
    norm_num
  have hround : (r.scale 2 (-e)).round = n := by
    apply Ratio.round_eq (Ratio.den_scale_pos hd (by norm_num) _)
    · rwa [hv]
    · rwa [hv]
  unfold nearestCode
  rw [if_neg hn.ne']
  dsimp only
  rw [he, hround]

theorem IsFinite.code_lt {m : Nat} {e : Int} (h : IsFinite m e)
    : codeOf m e < infiniteCode := by
  have hb := h.bounded
  have hg := h.greatest
  have hl := h.least
  have hk : (e - minExponent).toNat ≤ 2045 := by
    simp only [minExponent] at hl ⊢
    omega
  have hm : (e - minExponent).toNat * normalBound ≤ 2045 * normalBound :=
    Nat.mul_le_mul_right _ hk
  simp only [codeOf, infiniteCode, normalBound] at *
  omega

/-- Twice the least normal significand one exponent lower has the same code. -/
theorem codeOf_carry {e : Int} (least : minExponent < e)
    : codeOf (2 * normalBound) (e - 1) = codeOf normalBound e := by
  have : (e - minExponent).toNat = (e - 1 - minExponent).toNat + 1 := by omega
  simp only [codeOf, this]
  ring

theorem abs_div_sub_le {v u : ℚ} (hu : 0 < u) {n : ℚ} (low : (4 * n - 2) * u ≤ v)
    (high : v ≤ (4 * n + 2) * u)
    : |v / (4 * u) - n| ≤ 1 / 2 := by
  have hv : v = v / (4 * u) * 4 * u := by field_simp
  generalize v / (4 * u) = x at *
  rw [hv] at low high
  have hl := le_of_mul_le_mul_right low hu
  have hh := le_of_mul_le_mul_right high hu
  rw [abs_le]
  constructor <;> linarith

theorem abs_div_sub_lt {v u : ℚ} (hu : 0 < u) {n : ℚ} (low : (4 * n - 2) * u < v)
    (high : v < (4 * n + 2) * u)
    : |v / (4 * u) - n| < 1 / 2 := by
  have hv : v = v / (4 * u) * 4 * u := by field_simp
  generalize v / (4 * u) = x at *
  rw [hv] at low high
  have hl := lt_of_mul_lt_mul_right low hu.le
  have hh := lt_of_mul_lt_mul_right high hu.le
  rw [abs_lt]
  constructor <;> linarith

theorem zpow_add_eq_quarter (exponent : Int) (k : Nat)
    : (2 : ℚ) ^ (exponent + k) = 2 ^ (k + 2) * 2 ^ (exponent - 2) := by
  rw [← zpow_natCast, ← zpow_add₀ (by norm_num)]
  congr 1
  push_cast
  ring

/-- Below the least significand of a binade a quotient belongs to the binade before, where it
rounds up. -/
theorem nearestCode_of_below {r : Ratio} (hn : 0 < r.num) (hd : 0 < r.den) {e : Int}
    (finite : IsFinite normalBound e) (least : minExponent < e)
    (low : (4 * normalBound - 1 : ℚ) * 2 ^ (e - 2) ≤ r.value) (high : r.value < 2 ^ (e + 52))
    : nearestCode r = codeOf normalBound e := by
  have hu : (0 : ℚ) < 2 ^ (e - 2) := by positivity
  have hunit : (2 : ℚ) ^ (e - 1) = 4 * (2 ^ (e - 2) / 2) := by
    have : e - 1 = e - 2 + 1 := by ring
    rw [this, zpow_add_one₀ (by norm_num)]
    ring
  have hhalf : (0 : ℚ) < 2 ^ (e - 2) / 2 := by linarith
  have h52 := zpow_add_eq_quarter e 52
  have h51 := zpow_add_eq_quarter e 51
  rw [← codeOf_carry least, nearestCode_eq hn hd (n := 2 * normalBound) (e := e - 1)
    (by omega)]
  · rw [codeOf_carry least, min_eq_left finite.code_lt.le]
  · have : e - 1 + 53 = e + 52 := by ring
    rwa [this]
  · intro _
    have : e - 1 + 52 = e + 51 := by ring
    rw [this]
    simp only [normalBound] at low
    push_cast at *
    rw [h51]
    nlinarith
  · rw [hunit]
    apply abs_div_sub_le hhalf
    · simp only [normalBound] at low ⊢
      push_cast at *
      nlinarith
    · simp only [normalBound]
      push_cast at *
      rw [h52] at high
      nlinarith
  · intro _
    exact Nat.mul_mod_right 2 normalBound

/-- A quotient in the interval of a significand has the code of the significand. -/
theorem nearestCode_of_contains {r : Ratio} (hn : 0 < r.num) (hd : 0 < r.den) {m : Nat} {e : Int}
    (finite : IsFinite m e) (within : (Interval.ofSignificand m e).Contains e r.value)
    : nearestCode r = codeOf m e := by
  have hu : (0 : ℚ) < 2 ^ (e - 2) := by positivity
  have hpos := finite.positive
  have hbound := finite.bounded
  obtain ⟨hl, hh⟩ := within.bounds
  rw [Interval.high_ofSignificand] at hh
  by_cases hbelow : (m = normalBound ∧ minExponent < e) ∧ r.value < 2 ^ (e + 52)
  · obtain ⟨⟨rfl, hlt⟩, hv⟩ := hbelow
    have hlow : ((Interval.ofSignificand normalBound e).low : ℚ) = 4 * normalBound - 1 := by
      simp only [Interval.ofSignificand, hlt, normalBound]
      norm_num
    exact nearestCode_of_below hn hd finite hlt (by rwa [hlow] at hl) hv
  · have hlow := (Interval.low_ofSignificand e hpos).1
    have hl' : (4 * m - 2 : ℚ) * 2 ^ (e - 2) ≤ r.value :=
      le_trans (mul_le_mul_of_nonneg_right hlow hu.le) hl
    rw [nearestCode_eq hn hd finite.least, min_eq_left finite.code_lt.le]
    · have h53 := zpow_add_eq_quarter e 53
      push_cast at h53
      rw [h53]
      refine lt_of_le_of_lt hh (mul_lt_mul_of_pos_right ?_ hu)
      have : 4 * m + 2 < 2 ^ 55 := by
        simp only [normalBound] at hbound
        omega
      exact_mod_cast this
    · intro hlt
      have hnormal := finite.normal hlt
      rcases Nat.eq_or_lt_of_le hnormal with he | hgt
      · exact not_lt.mp fun hv => hbelow ⟨⟨he.symm, hlt⟩, hv⟩
      · have h52 := zpow_add_eq_quarter e 52
        push_cast at h52
        rw [h52]
        refine le_trans (mul_le_mul_of_nonneg_right ?_ hu.le) hl'
        have : 2 ^ 54 + 2 ≤ 4 * m := by
          simp only [normalBound] at hgt
          omega
        have : ((2 ^ 54 + 2 : Nat) : ℚ) ≤ ((4 * m : Nat) : ℚ) := by exact_mod_cast this
        push_cast at this
        linarith
    · rw [← four_mul_quarter]
      exact abs_div_sub_le hu hl' hh
    · rw [← four_mul_quarter]
      intro hhalf
      -- an odd significand has an open interval, of which half a unit is an end
      by_contra hodd
      have hopen : (Interval.ofSignificand m e).closed = false := by
        simp [Interval.ofSignificand, hodd]
      obtain ⟨hls, hhs⟩ := within.strict hopen
      rw [Interval.high_ofSignificand] at hhs
      exact absurd hhalf
        (abs_div_sub_lt hu (lt_of_le_of_lt (mul_le_mul_of_nonneg_right hlow hu.le) hls) hhs).ne

-----------------------------------------------------------------------------------------
-- What a value stands for
-----------------------------------------------------------------------------------------

/-- Only the highest exponent field belongs to what is no finite number. -/
theorem field_of_ofCode_nan {negative : Bool} {code : Nat}
    (h : Number.ofCode negative code = .nan)
    : code / normalBound = 0x7FF ∧ code % normalBound ≠ 0 := by
  unfold Number.ofCode at h
  dsimp only at h
  split at h
  · next hfield =>
      split at h
      · cases h
      · next hfraction => exact ⟨hfield, hfraction⟩
  · split at h <;> cases h

/-- An infinity has the highest exponent field and no fraction. -/
theorem code_of_ofCode_infinite {negative sign : Bool} {code : Nat}
    (h : Number.ofCode sign code = .infinite negative)
    : sign = negative ∧ code = infiniteCode := by
  have hdm := Nat.div_add_mod code normalBound
  unfold Number.ofCode at h
  dsimp only at h
  split at h
  · next hfield =>
      split at h
      · next hfraction =>
          cases h
          rw [hfield, hfraction] at hdm
          exact ⟨rfl, hdm.symm⟩
      · cases h
  · split at h <;> cases h

/-- A finite number has the code of its significand at its exponent, and it is zero or has a
significand that is normal where it can be. -/
theorem code_of_ofCode_finite {negative sign : Bool} {code m : Nat} {e : Int}
    (bound : code < signBit) (h : Number.ofCode sign code = .finite negative m e)
    : sign = negative ∧ code = codeOf m e ∧ (m = 0 ∧ e = minExponent ∨ IsFinite m e) := by
  have hdm := Nat.div_add_mod code normalBound
  have hmod : code % normalBound < normalBound := Nat.mod_lt _ (by decide)
  have hdiv : code / normalBound < 2048 := Nat.div_lt_of_lt_mul bound
  unfold Number.ofCode at h
  dsimp only at h
  generalize code / normalBound = field at *
  generalize code % normalBound = fraction at *
  split at h
  · split at h <;> cases h
  · next hfield =>
      split at h
      · next hzero =>
          cases h
          refine ⟨rfl, ?_, ?_⟩
          · simp only [codeOf, Int.sub_self, Int.toNat_zero]
            simp [← hdm, hzero]
          · rcases Nat.eq_zero_or_pos m with hz | hp
            · exact Or.inl ⟨hz, rfl⟩
            · exact Or.inr ⟨hp, by omega, le_refl _, by decide, fun h => absurd h (lt_irrefl _)⟩
      · next hzero =>
          cases h
          obtain ⟨k, rfl⟩ : ∃ k, field = k + 1 := ⟨field - 1, by omega⟩
          have hk : (minExponent + (k + 1 : Nat) - 1 - minExponent).toNat = k := by omega
          refine ⟨rfl, ?_, Or.inr ⟨?_, ?_, ?_, ?_, ?_⟩⟩
          · rw [codeOf, hk, ← hdm]
            ring
          · have : 0 < normalBound := by decide
            omega
          · omega
          · simp only [minExponent]
            omega
          · simp only [minExponent]
            omega
          · intro _
            omega

/-- The only value that stands for no number. -/
theorem eq_of_ofFloat_nan {x : Float} (h : Number.ofFloat x = .nan)
    : x = notANumber := by
  obtain ⟨hfield, hfraction⟩ := field_of_ofCode_nan h
  rcases x with ⟨⟨bits, valid⟩⟩
  change bits.toNat % signBit / normalBound = 2047 at hfield
  change bits.toNat % signBit % normalBound ≠ 0 at hfraction
  simp only [signBit, normalBound] at hfield hfraction
  have hexponent : @Float.Model.UnpackedFloat.unpackExponent .binary64 bits.toBitVec = -1#11 := by
    apply BitVec.eq_of_toNat_eq
    rw [toNat_unpackExponent, normalBound, UInt64.toNat_toBitVec, (by decide : (-1#11).toNat = 2047)]
    omega
  have hmantissa : @Float.Model.UnpackedFloat.unpackMantissa .binary64 bits.toBitVec ≠ 0#52 := by
    intro hz
    have hz := congrArg BitVec.toNat hz
    rw [toNat_unpackMantissa, normalBound, UInt64.toNat_toBitVec, (by decide : (0#52).toNat = 0)] at hz
    omega
  have hbits : bits = notANumber.toBits := by
    rw [← UInt64.toBitVec_inj, valid.eq_packedNaN hexponent hmantissa]
    decide
  subst hbits
  rfl

/-- A value that stands for an infinity is the one with its sign. -/
theorem eq_of_ofFloat_infinite {x : Float} {negative : Bool}
    (h : Number.ofFloat x = .infinite negative)
    : x = floatOfCode negative infiniteCode := by
  have hx := floatOfCode_toBits x
  obtain ⟨hs, hc⟩ := code_of_ofCode_infinite h
  rw [hs, hc] at hx
  exact hx.symm

/-- A value that stands for a finite number is the one with its sign and its code. -/
theorem eq_of_ofFloat_finite {x : Float} {negative : Bool} {m : Nat} {e : Int}
    (h : Number.ofFloat x = .finite negative m e)
    : x = floatOfCode negative (codeOf m e) ∧ (m = 0 ∧ e = minExponent ∨ IsFinite m e) := by
  have hx := floatOfCode_toBits x
  obtain ⟨hs, hc, hm⟩ := code_of_ofCode_finite (Nat.mod_lt _ (by decide)) h
  rw [hs, hc] at hx
  exact ⟨hx.symm, hm⟩

end BenchLog.Decimal
