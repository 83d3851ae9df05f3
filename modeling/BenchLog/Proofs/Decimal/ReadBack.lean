import Mathlib.Data.List.TakeWhile
import BenchLog.Proofs.Decimal.Numeral

/-! Reading back the shortest text of a floating-point value.
The digits lie in the interval of the significand, whichever grid they come from, and laid out
without an exponent part they are read as the value itself.
-/

namespace BenchLog.Decimal

-----------------------------------------------------------------------------------------
-- Reading a numeral without an exponent part
-----------------------------------------------------------------------------------------

theorem splitDigits_all {ds : List Char} (h : ∀ c ∈ ds, c.isDigit = true)
    : splitDigits ds = (ds, []) := by
  simp only [splitDigits, Prod.mk.injEq]
  exact ⟨List.takeWhile_eq_self_iff.mpr h, List.dropWhile_eq_nil_iff.mpr h⟩

theorem splitDigits_append {ds : List Char} (h : ∀ c ∈ ds, c.isDigit = true) {c : Char}
    (hc : c.isDigit = false) (rest : List Char)
    : splitDigits (ds ++ c :: rest) = (ds, c :: rest) := by
  simp only [splitDigits, Prod.mk.injEq]
  rw [List.takeWhile_append_of_pos h, List.dropWhile_append_of_pos h]
  simp [hc]

theorem readNumeral?_digits {ds : List Char} (hne : ds ≠ []) (h : ∀ c ∈ ds, c.isDigit = true)
    : readNumeral? ds = some ⟨ds, [], 0⟩ := by
  simp [readNumeral?, splitDigits_all h, hne, readExponent?]

theorem readNumeral?_pointed {whole fraction : List Char} (hne : whole ≠ [])
    (hw : ∀ c ∈ whole, c.isDigit = true) (hf : ∀ c ∈ fraction, c.isDigit = true)
    : readNumeral? (whole ++ '.' :: fraction) = some ⟨whole, fraction, 0⟩ := by
  simp [readNumeral?, splitDigits_append hw (by decide : '.'.isDigit = false), splitDigits_all hf,
    hne, readExponent?]

theorem toLower_of_isDigit {c : Char} (h : c.isDigit = true)
    : c.toLower = c := by
  apply Char.toLower_eq_of_not_isUpper
  intro hupper
  have hdigit : c.toNat ≤ 57 := (Char.isDigit_iff_toNat.mp h).2
  simp only [Char.isUpper, decide_eq_true_eq] at hupper
  have hletter : 65 ≤ c.toNat := UInt32.le_iff_toNat_le.mp hupper.1
  omega

/-- A text that begins with a digit, with a sign or without, is read as a numeral. -/
theorem readFloatChars?_signed (negative : Bool) {c : Char} (hc : c.isDigit = true)
    (cs : List Char)
    : readFloatChars? (signed negative (c :: cs)) =
        (readNumeral? (c :: cs)).map fun n => floatOfCode negative n.code := by
  have hsign : splitSign (signed negative (c :: cs)) = (negative, c :: cs) := by
    cases negative with
    | true => rfl
    | false =>
        unfold signed splitSign
        split
        · next h => cases h; exact absurd hc (by decide)
        · next h => cases h; exact absurd hc (by decide)
        · rfl
  have hword : ∀ (d : Char) (ds : List Char), d.isDigit = false →
      String.ofList (Text.lowerChars (c :: cs)) ≠ String.ofList (d :: ds) := by
    intro d ds hd he
    have he := String.ofList_injective he
    rw [Text.lowerChars, List.map_cons, toLower_of_isDigit hc] at he
    rw [(List.cons.inj he).1, hd] at hc
    exact Bool.false_ne_true hc
  unfold readFloatChars?
  rw [hsign]
  dsimp only
  rw [if_neg, if_neg]
  · exact hword 'n' ['a', 'n'] rfl
  · rintro (h | h)
    · exact hword 'i' ['n', 'f'] rfl h
    · exact hword 'i' ['n', 'f', 'i', 'n', 'i', 't', 'y'] rfl h

-----------------------------------------------------------------------------------------
-- Digits that lie in the interval of a significand
-----------------------------------------------------------------------------------------

def Scaled.value (d : Scaled) : ℚ :=
  d.units * 10 ^ d.exponent

theorem value_binaryRatio (m : Nat) (e : Int)
    : (binaryRatio m e).value = m * 2 ^ e := by
  rw [binaryRatio, Ratio.value_scale _ (by norm_num)]
  simp [Ratio.value]

/-- What is admitted on a grid lies in the interval. -/
theorem Interval.contains_of_admits {i : Interval} {e grid : Int} {d : Nat}
    (h : i.admits ((Ratio.scale ⟨1, 1⟩ 2 (e - 2)).scale 10 (-grid)) d = true)
    : i.Contains e (Scaled.value ⟨d, grid⟩) := by
  have hd : 0 < ((Ratio.scale ⟨1, 1⟩ 2 (e - 2)).scale 10 (-grid)).den :=
    Ratio.den_scale_pos (Ratio.den_scale_pos Nat.one_pos (by norm_num) _) (by norm_num) _
  have hv : ((Ratio.scale ⟨1, 1⟩ 2 (e - 2)).scale 10 (-grid)).value * 10 ^ grid = 2 ^ (e - 2) := by
    have hten : (10 : ℚ) ^ grid ≠ 0 := by positivity
    rw [Ratio.value_scale _ (by norm_num), Ratio.value_scale _ (by norm_num), zpow_neg]
    simp only [Nat.cast_ofNat]
    rw [inv_mul_cancel_right₀ hten]
    simp [Ratio.value]
  generalize (Ratio.scale ⟨1, 1⟩ 2 (e - 2)).scale 10 (-grid) = unit at *
  have hd' : (0 : ℚ) < unit.den := by exact_mod_cast hd
  have hten : (0 : ℚ) < 10 ^ grid := by positivity
  have hle : ∀ n : Nat, n * unit.num ≤ d * unit.den ↔ (n : ℚ) * 2 ^ (e - 2) ≤ d * 10 ^ grid := by
    intro n
    rw [← hv, ← mul_assoc, mul_le_mul_iff_left₀ hten, Ratio.value, ← mul_div_assoc, div_le_iff₀ hd']
    exact_mod_cast Iff.rfl
  have hge : ∀ n : Nat, d * unit.den ≤ n * unit.num ↔ (d : ℚ) * 10 ^ grid ≤ n * 2 ^ (e - 2) := by
    intro n
    rw [← hv, ← mul_assoc, mul_le_mul_iff_left₀ hten, Ratio.value, ← mul_div_assoc, le_div_iff₀ hd']
    exact_mod_cast Iff.rfl
  unfold Contains
  unfold admits at h
  dsimp only at h
  unfold Scaled.value
  split_ifs at h ⊢
  · rw [decide_eq_true_eq, hle, hge] at h
    exact h
  · rw [decide_eq_true_eq, ← Nat.not_le, ← Nat.not_le, hge, hle, not_le, not_le] at h
    exact h

theorem Interval.admits_of_neighbour? {tie : Tie} {i : Interval} {unit : Ratio} {d : Nat}
    (h : i.neighbour? tie unit = some d)
    : i.admits unit d = true := by
  unfold neighbour? at h
  dsimp only at h
  split at h
  · next hb ha =>
      split_ifs at h
      · cases h; exact hb
      · cases h; exact ha
      · cases tie with
        | even => cases h; exact hb
        | away => cases h; exact ha
      · cases tie with
        | even => cases h; exact ha
        | away => cases h; exact ha
  · next hb _ => cases h; exact hb
  · next ha => cases h; exact ha
  · cases h

/-- What is found on one of the grids lies in the interval, by induction along the grids. -/
theorem contains_of_firstNeighbour {tie : Tie} {i : Interval} {e : Int} {grids : List Int}
    {d : Scaled} (h : firstNeighbour tie i (e - 2) grids = some d)
    : i.Contains e d.value := by
  induction grids with
  | nil => cases h
  | cons grid grids ih =>
      unfold firstNeighbour at h
      dsimp only at h
      split at h
      · next units hn =>
          cases h
          exact Interval.contains_of_admits (Interval.admits_of_neighbour? hn)
      · exact ih h

/-- Seventeen digits after the first are within a quarter of a unit, so that the number rounded to
them lies in the interval. -/
theorem contains_rounded {m : Nat} {e : Int} (finite : IsFinite m e) {last : Int}
    (hlast : last = (binaryRatio m e).exponent 10 - 17)
    : (Interval.ofSignificand m e).Contains e
        (Scaled.value ⟨((binaryRatio m e).scale 10 (-last)).round, last⟩) := by
  have hpos := finite.positive
  have hbound : (m : ℚ) < 2 ^ 53 := by
    have := finite.bounded
    simp only [normalBound] at this
    have : m < 2 ^ 53 := by omega
    exact_mod_cast this
  have hd : 0 < (binaryRatio m e).den := Ratio.den_scale_pos Nat.one_pos (by norm_num) _
  have hn : 0 < (binaryRatio m e).num := Nat.mul_pos hpos (Nat.pow_pos (by norm_num))
  have hten : (0 : ℚ) < 10 ^ last := by positivity
  have hu : (0 : ℚ) < 2 ^ (e - 2) := by positivity
  -- the last place is worth less than half a unit
  have hplace : (10 : ℚ) ^ last < 2 * 2 ^ (e - 2) := by
    have hfirst := (Ratio.exponent_bounds hn hd (by decide : 2 ≤ 10)).1
    have he : (binaryRatio m e).exponent 10 = last + 17 := by omega
    rw [he, value_binaryRatio, zpow_add₀ (by norm_num), ← four_mul_quarter] at hfirst
    norm_num at hfirst
    nlinarith
  have hnear := Ratio.abs_value_sub_round_le (r := (binaryRatio m e).scale 10 (-last))
    (Ratio.den_scale_pos hd (by norm_num) _)
  have hvalue : ((binaryRatio m e).scale 10 (-last)).value * 10 ^ last = m * 2 ^ e := by
    rw [Ratio.value_scale _ (by norm_num), value_binaryRatio, zpow_neg, Nat.cast_ofNat,
      inv_mul_cancel_right₀ hten.ne']
  generalize ((binaryRatio m e).scale 10 (-last)).round = n at *
  generalize ((binaryRatio m e).scale 10 (-last)).value = v at *
  rw [← four_mul_quarter] at hvalue
  obtain ⟨hl, hh⟩ := abs_le.mp hnear
  have hlow := (Interval.low_ofSignificand e hpos).2
  rw [Scaled.value]
  apply Interval.contains_of_lt
  · nlinarith [mul_le_mul_of_nonneg_right hlow hu.le]
  · rw [Interval.high_ofSignificand]
    nlinarith

/-- The shortest decimal number of a significand lies in its interval. -/
theorem contains_shortestDecimal (tie : Tie) {m : Nat} {e : Int} (finite : IsFinite m e)
    : (Interval.ofSignificand m e).Contains e (shortestDecimal tie m e).value := by
  unfold shortestDecimal
  dsimp only
  cases h : firstNeighbour tie (Interval.ofSignificand m e) (e - 2)
      ((List.range maxDigits).map fun (n : Nat) => (binaryRatio m e).exponent 10 - (n : Int)) with
  | some d => exact contains_of_firstNeighbour h
  | none => exact contains_rounded finite rfl

-----------------------------------------------------------------------------------------
-- Reading what was laid out
-----------------------------------------------------------------------------------------

theorem dropZerosEnd_append (cs : List Char)
    : ∃ k, cs = (cs.reverse.dropWhile (· == '0')).reverse ++ List.replicate k '0' := by
  have hz : cs.reverse.takeWhile (· == '0') =
      List.replicate (cs.reverse.takeWhile (· == '0')).length '0' :=
    List.eq_replicate_of_mem fun c hc => by simpa using List.mem_takeWhile_imp hc
  have hs := congrArg List.reverse (List.takeWhile_append_dropWhile (p := (· == '0')) (l := cs.reverse))
  rw [hz, List.reverse_append, List.reverse_reverse, List.reverse_replicate] at hs
  exact ⟨_, hs.symm⟩

/-- The digits of a number are its significant ones and zeros. -/
theorem digits_eq_significantDigits (n : Nat)
    : ∃ k, digits n = significantDigits n ++ List.replicate k '0' := by
  unfold significantDigits
  cases h : digits n with
  | nil => exact absurd h (digits_ne_nil n)
  | cons d ds =>
      obtain ⟨k, hk⟩ := dropZerosEnd_append ds
      exact ⟨k, congrArg (d :: ·) hk⟩

/-- The text is a numeral without sign that spells the rational number. -/
def Spells (cs : List Char) (v : ℚ) : Prop :=
  (∃ c rest, cs = c :: rest ∧ c.isDigit = true)
  ∧ ∃ n : Numeral,
      readNumeral? cs = some n
      ∧ (∀ c ∈ n.whole, c.isDigit = true)
      ∧ (∀ c ∈ n.fraction, c.isDigit = true)
      ∧ n.value = v

theorem spells_digits (ds : List Char) (hne : ds ≠ []) (hd : ∀ c ∈ ds, c.isDigit = true)
    : Spells ds (ofDigits ds) := by
  obtain ⟨c, rest, rfl⟩ := List.exists_cons_of_ne_nil hne
  refine ⟨⟨c, rest, rfl, hd c (by simp)⟩, _, readNumeral?_digits hne hd, hd, by simp, ?_⟩
  simp [Numeral.value]

theorem spells_pointed (ds es : List Char) (hne : ds ≠ []) (hd : ∀ c ∈ ds, c.isDigit = true)
    (he : ∀ c ∈ es, c.isDigit = true)
    : Spells (ds ++ '.' :: es) (ofDigits (ds ++ es) * 10 ^ (-es.length : Int)) := by
  refine ⟨?_, _, readNumeral?_pointed hne hd he, hd, he, ?_⟩
  · obtain ⟨c, rest, rfl⟩ := List.exists_cons_of_ne_nil hne
    exact ⟨c, _, rfl, hd c (by simp)⟩
  · rw [Numeral.value, zero_sub]

/-- A numeral is read as the number to which its value rounds. -/
theorem Spells.readFloatChars? {cs : List Char} {v : ℚ} (h : Spells cs v) (negative : Bool)
    {m : Nat} {e : Int} (finite : IsFinite m e)
    (within : (Interval.ofSignificand m e).Contains e v)
    : readFloatChars? (signed negative cs) = some (floatOfCode negative (codeOf m e)) := by
  obtain ⟨⟨c, rest, rfl, hc⟩, n, hn, hw, hf, rfl⟩ := h
  rw [readFloatChars?_signed negative hc, hn, Option.map_some,
    Numeral.code_of_contains hw hf finite within]

theorem isDigit_of_mem_replicate {k : Nat} {c : Char} (h : c ∈ List.replicate k '0')
    : c.isDigit = true := by
  rw [List.eq_of_mem_replicate h]
  rfl

section Layout

variable {l : Layout} (whole : l.zeroFraction = false)
include whole

/-- Digits laid out without an exponent part spell their number at its exponent; the point stands
before them, among them or after them. -/
theorem spells_plainText {ds : List Char} (hne : ds ≠ []) (hd : ∀ c ∈ ds, c.isDigit = true)
    (first : Int)
    : Spells (l.plainText ds first) (ofDigits ds * 10 ^ (first + 1 - ds.length)) := by
  unfold Layout.plainText
  by_cases hneg : first < 0
  · rw [if_pos hneg]
    have h := spells_pointed ['0'] (List.replicate (-first - 1).toNat '0' ++ ds)
      (by simp) (by simp) fun c hc =>
        (List.mem_append.mp hc).elim isDigit_of_mem_replicate (hd c)
    have hv : ofDigits (['0'] ++ (List.replicate (-first - 1).toNat '0' ++ ds)) = ofDigits ds := by
      rw [← List.append_assoc, ofDigits_append, ← List.replicate_one, List.replicate_append_replicate,
        ofDigits_replicate_zero, Nat.mul_zero, Nat.zero_add]
    have hk : (-(List.replicate (-first - 1).toNat '0' ++ ds).length : Int) =
        first + 1 - ds.length := by
      rw [List.length_append, List.length_replicate]
      omega
    rwa [hv, hk] at h
  · rw [if_neg hneg]
    dsimp only
    by_cases hinside : first.toNat + 1 < ds.length
    · rw [if_pos hinside]
      have h := spells_pointed (ds.take (first.toNat + 1)) (ds.drop (first.toNat + 1))
        (by simpa using hne) (fun c hc => hd c (List.mem_of_mem_take hc))
        (fun c hc => hd c (List.mem_of_mem_drop hc))
      have hk : (-(ds.drop (first.toNat + 1)).length : Int) = first + 1 - ds.length := by
        rw [List.length_drop]
        omega
      rwa [List.take_append_drop, hk] at h
    · rw [if_neg hinside, whole, if_neg Bool.false_ne_true, List.append_nil]
      have h := spells_digits (ds ++ List.replicate (first.toNat + 1 - ds.length) '0')
        (by simp [hne]) fun c hc => (List.mem_append.mp hc).elim (hd c) isDigit_of_mem_replicate
      have hv : (ofDigits (ds ++ List.replicate (first.toNat + 1 - ds.length) '0') : ℚ) =
          ofDigits ds * 10 ^ (first + 1 - ds.length) := by
        have hk : first + 1 - ds.length = ((first.toNat + 1 - ds.length : Nat) : Int) := by omega
        rw [ofDigits_append, ofDigits_replicate_zero, List.length_replicate, hk, zpow_natCast]
        push_cast
        ring
      rwa [hv] at h

/-- The significant digits of a decimal number spell it where no exponent part is written. -/
theorem spells_decimalText (plain : ∀ first, l.plain first = true) (d : Scaled)
    : Spells (l.decimalText d) d.value := by
  obtain ⟨k, hk⟩ := digits_eq_significantDigits d.units
  have hd : ∀ c ∈ significantDigits d.units, c.isDigit = true := fun c hc =>
    isDigit_of_mem_digits (n := d.units) (by rw [hk]; exact List.mem_append_left _ hc)
  have hne : significantDigits d.units ≠ [] := by
    unfold significantDigits
    split
    · next h => exact absurd h (digits_ne_nil _)
    · simp
  have hunits := ofDigits_digits d.units
  have hlength := congrArg List.length hk
  rw [hk, ofDigits_append, ofDigits_replicate_zero, List.length_replicate] at hunits
  rw [List.length_append, List.length_replicate] at hlength
  unfold Layout.decimalText
  dsimp only
  rw [plain, if_pos rfl]
  have h := spells_plainText whole hne hd (d.exponent + (digits d.units).length - 1)
  have hv : (ofDigits (significantDigits d.units) : ℚ)
      * 10 ^ (d.exponent + (digits d.units).length - 1 + 1 - (significantDigits d.units).length) =
        d.value := by
    have he : d.exponent + ((digits d.units).length : Int) - 1 + 1
        - (significantDigits d.units).length = d.exponent + (k : Int) := by
      omega
    have hq : (10 : ℚ) ^ k * ofDigits (significantDigits d.units) = d.units := by
      exact_mod_cast hunits
    rw [he, zpow_add₀ (by norm_num), zpow_natCast]
    calc (ofDigits (significantDigits d.units) : ℚ) * (10 ^ d.exponent * 10 ^ k)
          = 10 ^ k * ofDigits (significantDigits d.units) * 10 ^ d.exponent := by ring
      _ = d.value := by rw [hq, Scaled.value]
  rwa [hv] at h

/-- A value is read back from its fewest digits if no exponent part is written. -/
theorem readFloatChars?_numberText (plain : ∀ first, l.plain first = true)
    (nan : l.nan = ['N', 'a', 'N']) (x : Float)
    : readFloatChars? (l.numberText (.ofFloat x)) = some x := by
  cases h : Number.ofFloat x with
  | nan =>
      rw [eq_of_ofFloat_nan h, Layout.numberText, nan]
      decide
  | infinite negative =>
      rw [eq_of_ofFloat_infinite h, Layout.numberText]
      cases negative <;> decide
  | finite negative m e =>
      obtain ⟨hx, ⟨rfl, rfl⟩ | finite⟩ := eq_of_ofFloat_finite h
      · have ht : l.numberText (.finite negative 0 minExponent) = signed negative ['0'] := by
          simp [Layout.numberText, Layout.plainText, whole]
        rw [hx, ht]
        cases negative <;> decide
      · have ht : l.numberText (.finite negative m e) =
            signed negative (l.decimalText (shortestDecimal l.tie m e)) := by
          rw [Layout.numberText, if_neg finite.positive.ne']
        rw [ht, (spells_decimalText whole plain _).readFloatChars? negative finite
          (contains_shortestDecimal l.tie finite), hx]

end Layout

end BenchLog.Decimal
