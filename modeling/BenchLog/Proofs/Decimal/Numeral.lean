import BenchLog.Decimal.Read
import BenchLog.Proofs.Decimal.Nearest

/-! The values of decimal numerals.
A sequence of digits denotes what is written with them, leading zeros count for nothing, and a
numeral whose value rounds to a number is read as that number.
-/

namespace BenchLog.Decimal

-----------------------------------------------------------------------------------------
-- Sequences of digits
-----------------------------------------------------------------------------------------

theorem ofDigits_eq (ds : List Char)
    : ofDigits ds = Nat.ofDigitChars 10 ds 0 :=
  (Nat.ofDigitChars_eq_foldl).symm

theorem ofDigits_append (ds es : List Char)
    : ofDigits (ds ++ es) = 10 ^ es.length * ofDigits ds + ofDigits es := by
  rw [ofDigits_eq, Nat.ofDigitChars_append, Nat.ofDigitChars_eq_ofDigitChars_zero, ofDigits_eq,
    ofDigits_eq]

theorem ofDigits_cons (c : Char) (ds : List Char)
    : ofDigits (c :: ds) = 10 ^ ds.length * digitValue c + ofDigits ds := by
  have h := ofDigits_append [c] ds
  simpa [ofDigits] using h

theorem ofDigits_replicate_zero (n : Nat)
    : ofDigits (List.replicate n '0') = 0 := by
  rw [ofDigits_eq, Nat.ofDigitChars_replicate_zero, Nat.mul_zero]

theorem ofDigits_digits (n : Nat)
    : ofDigits (digits n) = n := by
  rw [ofDigits_eq, digits, Nat.ofDigitChars_ten_toDigits]

theorem isDigit_of_mem_digits {n : Nat} {c : Char} (h : c ∈ digits n)
    : c.isDigit = true :=
  Nat.isDigit_of_mem_toDigits (by decide) (by decide) h

theorem digits_ne_nil (n : Nat)
    : digits n ≠ [] :=
  Nat.toDigits_ne_nil

/-- Leading zeros count for nothing, by induction along them. -/
theorem ofDigits_dropZeros (ds : List Char)
    : ofDigits (ds.dropWhile (· == '0')) = ofDigits ds := by
  induction ds with
  | nil => rfl
  | cons c ds ih =>
      rw [List.dropWhile_cons]
      split
      · next hc =>
          have hc : c = '0' := by simpa using hc
          subst hc
          rw [ih, ofDigits_cons]
          simp [digitValue]
      · rfl

theorem digitValue_lt {c : Char} (h : c.isDigit = true)
    : digitValue c < 10 := by
  simp only [Char.isDigit, Bool.and_eq_true, decide_eq_true_eq] at h
  have hc : c.val.toNat ≤ 57 := UInt32.le_iff_toNat_le.mp h.2
  simp only [digitValue, Char.toNat]
  have hz : '0'.val.toNat = 48 := rfl
  omega

theorem digitValue_pos {c : Char} (h : c.isDigit = true) (hz : c ≠ '0')
    : 0 < digitValue c := by
  simp only [Char.isDigit, Bool.and_eq_true, decide_eq_true_eq] at h
  have hc : 48 ≤ c.val.toNat := UInt32.le_iff_toNat_le.mp h.1
  have hne : c.val.toNat ≠ 48 := fun he => hz (Char.ext (UInt32.toNat_inj.mp he))
  simp only [digitValue, Char.toNat]
  have hz : '0'.val.toNat = 48 := rfl
  omega

theorem ofDigits_lt {ds : List Char} (h : ∀ c ∈ ds, c.isDigit = true)
    : ofDigits ds < 10 ^ ds.length := by
  induction ds with
  | nil => decide
  | cons c ds ih =>
      have hc := digitValue_lt (h c (by simp))
      have hd := ih fun d hd => h d (by simp [hd])
      have hm : 10 ^ ds.length * digitValue c ≤ 10 ^ ds.length * 9 :=
        Nat.mul_le_mul_left _ (by omega)
      rw [ofDigits_cons, List.length_cons, Nat.pow_succ]
      omega

/-- Digits of which the first is not zero denote at least the power of ten of that digit. -/
theorem pow_le_ofDigits {c : Char} {ds : List Char} (hc : c.isDigit = true) (hz : c ≠ '0')
    : 10 ^ ds.length ≤ ofDigits (c :: ds) := by
  have hm : 10 ^ ds.length * 1 ≤ 10 ^ ds.length * digitValue c :=
    Nat.mul_le_mul_left _ (digitValue_pos hc hz)
  rw [ofDigits_cons]
  omega

-----------------------------------------------------------------------------------------
-- The value of a numeral
-----------------------------------------------------------------------------------------

def Numeral.value (n : Numeral) : ℚ :=
  ofDigits (n.whole ++ n.fraction) * 10 ^ (n.exponent - n.fraction.length)

/-- A power of eight is below that of ten. -/
theorem two_pow_lt_ten_pow {k n : Nat} (hn : n ≠ 0) (h : k ≤ 3 * n)
    : (2 : ℚ) ^ k < 10 ^ n :=
  calc (2 : ℚ) ^ k ≤ 2 ^ (3 * n) := pow_le_pow_right₀ (by norm_num) h
    _ = (2 ^ 3) ^ n := pow_mul 2 3 n
    _ < 10 ^ n := pow_lt_pow_left₀ (by norm_num) (by norm_num) hn

/-- A number in the interval of a finite one is neither too small nor too large for a numeral to
be multiplied out. -/
theorem IsFinite.bounds {m : Nat} {e : Int} (finite : IsFinite m e) {v : ℚ}
    (within : (Interval.ofSignificand m e).Contains e v)
    : (10 : ℚ) ^ (-(400 : Nat) : Int) < v ∧ v < 10 ^ ((399 : Nat) : Int) := by
  obtain ⟨hl, hh⟩ := within.bounds
  have hpos := finite.positive
  have hbound := finite.bounded
  have hleast := finite.least
  have hgreatest := finite.greatest
  simp only [normalBound, minExponent] at hbound hleast
  have hlow : (1 : ℚ) ≤ (Interval.ofSignificand m e).low := by
    have hm : (1 : ℚ) ≤ m := by exact_mod_cast hpos
    have := (Interval.low_ofSignificand e hpos).1
    linarith
  have hhigh : ((Interval.ofSignificand m e).high : ℚ) ≤ 2 ^ 55 := by
    have hm : 4 * m + 2 ≤ 2 ^ 55 := by omega
    rw [Interval.high_ofSignificand]
    exact_mod_cast hm
  have hsmall : (2 : ℚ) ^ (-(1076 : Nat) : Int) ≤ 2 ^ (e - 2) :=
    zpow_le_zpow_right₀ (by norm_num) (by omega)
  have hlarge : (2 : ℚ) ^ (e - 2) ≤ 2 ^ ((969 : Nat) : Int) :=
    zpow_le_zpow_right₀ (by norm_num) (by omega)
  have hp : (0 : ℚ) < 2 ^ (e - 2) := by positivity
  constructor
  · calc (10 : ℚ) ^ (-(400 : Nat) : Int) < 2 ^ (-(1076 : Nat) : Int) := by
          rw [zpow_neg, zpow_neg, zpow_natCast, zpow_natCast]
          exact inv_strictAnti₀ (by positivity) (two_pow_lt_ten_pow (by decide) (by decide))
      _ ≤ 2 ^ (e - 2) := hsmall
      _ ≤ (Interval.ofSignificand m e).low * 2 ^ (e - 2) := le_mul_of_one_le_left hp.le hlow
      _ ≤ v := hl
  · calc v ≤ (Interval.ofSignificand m e).high * 2 ^ (e - 2) := hh
      _ ≤ 2 ^ 55 * 2 ^ ((969 : Nat) : Int) := mul_le_mul hhigh hlarge hp.le (by norm_num)
      _ = 2 ^ 1024 := by rw [zpow_natCast, ← pow_add]
      _ < 10 ^ ((399 : Nat) : Int) := by
          rw [zpow_natCast]
          exact two_pow_lt_ten_pow (by decide) (by decide)

/-- What is below a number of some digits times a power of ten has a lower exponent than its top. -/
theorem lt_add_of_pow_lt_mul {n k : Nat} {power a : Int} (hn : n < 10 ^ k)
    (h : (10 : ℚ) ^ a < n * 10 ^ power)
    : a < power + k := by
  have hn' : (n : ℚ) < 10 ^ k := by exact_mod_cast hn
  have hten : (0 : ℚ) < 10 ^ power := by positivity
  have hlt := lt_trans h (mul_lt_mul_of_pos_right hn' hten)
  rw [← zpow_natCast, ← zpow_add₀ (by norm_num), zpow_lt_zpow_iff_right₀ (by norm_num)] at hlt
  omega

theorem add_lt_of_mul_lt_pow {n k : Nat} {power a : Int} (hn : 10 ^ k ≤ n)
    (h : (n : ℚ) * 10 ^ power < 10 ^ a)
    : power + k < a := by
  have hn' : (10 : ℚ) ^ k ≤ n := by exact_mod_cast hn
  have hten : (0 : ℚ) < 10 ^ power := by positivity
  have hlt := lt_of_le_of_lt (mul_le_mul_of_nonneg_right hn' hten.le) h
  rw [← zpow_natCast, ← zpow_add₀ (by norm_num), zpow_lt_zpow_iff_right₀ (by norm_num)] at hlt
  omega

/-- A numeral whose value rounds to a number has the code of the number. -/
theorem Numeral.code_of_contains {n : Numeral} (hw : ∀ c ∈ n.whole, c.isDigit = true)
    (hf : ∀ c ∈ n.fraction, c.isDigit = true) {m : Nat} {e : Int} (finite : IsFinite m e)
    (within : (Interval.ofSignificand m e).Contains e n.value)
    : n.code = codeOf m e := by
  obtain ⟨hlow, hhigh⟩ := finite.bounds within
  have hall : ∀ c ∈ (n.whole ++ n.fraction).dropWhile (· == '0'), c.isDigit = true := by
    intro c hc
    rcases List.mem_append.mp ((List.dropWhile_suffix _).subset hc) with hc | hc
    · exact hw c hc
    · exact hf c hc
  have hv : n.value = ofDigits ((n.whole ++ n.fraction).dropWhile (· == '0'))
      * 10 ^ (n.exponent - n.fraction.length) := by
    rw [ofDigits_dropZeros, value]
  have hfirst := List.head?_dropWhile_not (· == '0') (n.whole ++ n.fraction)
  rw [hv] at hlow hhigh within
  unfold code
  dsimp only
  generalize (n.whole ++ n.fraction).dropWhile (· == '0') = ds at *
  generalize n.exponent - (n.fraction.length : Int) = power at *
  cases ds with
  | nil =>
      exfalso
      have hp : (0 : ℚ) < 10 ^ (-(400 : Nat) : Int) := by positivity
      have hz : (ofDigits [] : ℚ) * 10 ^ power = 0 := by simp [ofDigits]
      rw [hz] at hlow
      exact absurd hlow hp.not_gt
  | cons c ds =>
      have hc := hall c (by simp)
      have hz : c ≠ '0' := by simpa using hfirst
      have hleading : 10 ^ ds.length ≤ ofDigits (c :: ds) := pow_le_ofDigits hc hz
      have hpos : 0 < ofDigits (c :: ds) := lt_of_lt_of_le (by positivity) hleading
      have htop : ¬ power + ((c :: ds).length : Int) < -400 := by
        have := lt_add_of_pow_lt_mul (ofDigits_lt hall) hlow
        omega
      have hbottom : ¬ 400 < power + ((c :: ds).length : Int) := by
        have := add_lt_of_mul_lt_pow hleading hhigh
        rw [List.length_cons]
        omega
      rw [if_neg (by simpa using htop), if_neg hbottom]
      apply nearestCode_of_contains _ _ finite
      · rw [Ratio.value_scale _ (by norm_num)]
        simpa [Ratio.value] using within
      · exact Nat.mul_pos hpos (Nat.pow_pos (by norm_num))
      · exact Ratio.den_scale_pos Nat.one_pos (by norm_num) _

end BenchLog.Decimal
