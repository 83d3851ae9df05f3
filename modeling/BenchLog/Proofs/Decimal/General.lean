import BenchLog.Proofs.Decimal.Characters
import BenchLog.Proofs.Decimal.Significant
import BenchLog.Proofs.Decimal.Unpacked

/-! Six significant digits as a text.
Whichever notation is chosen, the text spells the nearest number of six digits. In plain notation
the value is rounded anew, with the places that its exponent leaves, and to the same digits.
-/

namespace BenchLog.Decimal

-----------------------------------------------------------------------------------------
-- Padded digits and exponent parts
-----------------------------------------------------------------------------------------

section

variable {width n : Nat}

theorem isDigit_of_mem_paddedDigits {c : Char} (h : c ∈ paddedDigits width n)
    : c.isDigit = true :=
  (List.mem_append.mp h).elim isDigit_of_mem_replicate isDigit_of_mem_digits

theorem ofDigits_paddedDigits (width n : Nat)
    : ofDigits (paddedDigits width n) = n := by
  rw [paddedDigits, ofDigits_append, ofDigits_replicate_zero, ofDigits_digits]
  omega

theorem length_paddedDigits (width n : Nat)
    : (paddedDigits width n).length = max width (digits n).length := by
  rw [paddedDigits, List.length_append, List.length_replicate]
  omega

/-- What fits into a positive width fills it. -/
theorem length_paddedDigits_of_lt (hw : 0 < width) (h : n < 10 ^ width)
    : (paddedDigits width n).length = width := by
  rw [length_paddedDigits]
  exact max_eq_left ((Nat.length_toDigits_le_iff (by decide) hw).mpr h)

theorem readExponent?_exponentPart (e : Int)
    : readExponent? (exponentPart e) = some e := by
  have hdigits : ∀ c ∈ paddedDigits 2 e.natAbs, c.isDigit = true :=
    fun _ => isDigit_of_mem_paddedDigits
  have hne : paddedDigits 2 e.natAbs ≠ [] := by simp [paddedDigits, digits_ne_nil]
  obtain ⟨d, ds, hds⟩ := List.exists_cons_of_ne_nil hne
  have hvalue := ofDigits_paddedDigits 2 e.natAbs
  rw [exponentPart, readExponent?, if_pos (Or.inl rfl)]
  rw [hds] at hdigits hvalue ⊢
  by_cases hneg : e < 0
  · rw [if_pos hneg]
    simp only [splitSign, splitDigits_all hdigits, hvalue, if_true]
    congr 1
    omega
  · rw [if_neg hneg]
    simp only [splitSign, splitDigits_all hdigits, hvalue, Bool.false_eq_true, if_false]
    congr 1
    omega

end

-----------------------------------------------------------------------------------------
-- Digits around a point
-----------------------------------------------------------------------------------------

/-- Digits before and after a point, some of them before it. -/
structure PlainDigits where
  whole : List Char
  fraction : List Char
  nonempty : whole ≠ []
  isDigit_whole : ∀ c ∈ whole, c.isDigit = true
  isDigit_fraction : ∀ c ∈ fraction, c.isDigit = true

namespace PlainDigits

/-- The point is left out if no digits follow it. -/
def text (d : PlainDigits) : List Char :=
  if d.fraction = [] then d.whole else d.whole ++ '.' :: d.fraction

def value (d : PlainDigits) : ℚ :=
  ofDigits (d.whole ++ d.fraction) * 10 ^ (-d.fraction.length : Int)

theorem readNumeral?_text (d : PlainDigits)
    : readNumeral? d.text = some ⟨d.whole, d.fraction, 0⟩ := by
  unfold text
  split
  · next hempty => rw [hempty, readNumeral?_digits d.nonempty d.isDigit_whole]
  · exact readNumeral?_pointed d.nonempty d.isDigit_whole d.isDigit_fraction

/-- A numeral goes on to its exponent part. -/
theorem readNumeral?_text_append (d : PlainDigits) (e : Int)
    : readNumeral? (d.text ++ exponentPart e) = some ⟨d.whole, d.fraction, e⟩ := by
  have hexponent := readExponent?_exponentPart e
  unfold exponentPart at hexponent ⊢
  unfold text
  split
  · next hempty =>
      simp [readNumeral?, splitDigits_append d.isDigit_whole (by decide : 'e'.isDigit = false),
        d.nonempty, hexponent, hempty]
  · rw [List.append_assoc, List.cons_append]
    simp [readNumeral?, splitDigits_append d.isDigit_whole (by decide : '.'.isDigit = false),
      splitDigits_append d.isDigit_fraction (by decide : 'e'.isDigit = false), d.nonempty, hexponent]

theorem exists_text_eq_cons (d : PlainDigits)
    : ∃ c cs, d.text = c :: cs ∧ c.isDigit = true := by
  obtain ⟨c, cs, hcs⟩ := List.exists_cons_of_ne_nil d.nonempty
  have hc : c.isDigit = true := d.isDigit_whole c (by simp [hcs])
  unfold text
  rw [hcs]
  split <;> exact ⟨c, _, rfl, hc⟩

theorem spells_text (d : PlainDigits)
    : Spells d.text d.value := by
  refine ⟨d.exists_text_eq_cons, _, d.readNumeral?_text, d.isDigit_whole, d.isDigit_fraction, ?_⟩
  rw [Numeral.value, zero_sub, value]

theorem spells_text_append (d : PlainDigits) (e : Int)
    : Spells (d.text ++ exponentPart e) (d.value * 10 ^ e) := by
  obtain ⟨c, cs, hcs, hc⟩ := d.exists_text_eq_cons
  refine ⟨⟨c, cs ++ exponentPart e, by rw [hcs]; rfl, hc⟩, _, d.readNumeral?_text_append e,
    d.isDigit_whole, d.isDigit_fraction, ?_⟩
  rw [Numeral.value, value, mul_assoc, ← zpow_add₀ (by norm_num), neg_add_eq_sub]

-----------------------------------------------------------------------------------------
-- Units of some place
-----------------------------------------------------------------------------------------

/-- The digits of a count of units of the last of some places. -/
def ofUnits (places n : Nat) : PlainDigits where
  whole := digits (n / 10 ^ places)
  fraction := if places = 0 then [] else paddedDigits places (n % 10 ^ places)
  nonempty := digits_ne_nil _
  isDigit_whole := fun _ => isDigit_of_mem_digits
  isDigit_fraction := by
    split
    · exact fun _ h => absurd h List.not_mem_nil
    · exact fun _ => isDigit_of_mem_paddedDigits

theorem whole_ofUnits (places n : Nat)
    : (ofUnits places n).whole = digits (n / 10 ^ places) :=
  rfl

theorem fraction_ofUnits_zero (n : Nat)
    : (ofUnits 0 n).fraction = [] :=
  rfl

theorem fraction_ofUnits_of_ne_zero {places : Nat} (h : places ≠ 0) (n : Nat)
    : (ofUnits places n).fraction = paddedDigits places (n % 10 ^ places) :=
  if_neg h

theorem text_ofUnits (places n : Nat)
    : (ofUnits places n).text = pointed places n := by
  unfold text pointed
  rw [whole_ofUnits]
  by_cases hzero : places = 0
  · rw [if_pos hzero, hzero, fraction_ofUnits_zero, if_pos rfl, Nat.pow_zero, Nat.div_one]
  · have hne : paddedDigits places (n % 10 ^ places) ≠ [] := by simp [paddedDigits, digits_ne_nil]
    rw [if_neg hzero, fraction_ofUnits_of_ne_zero hzero, if_neg hne, Nat.pow_eq]

theorem value_ofUnits (places n : Nat)
    : (ofUnits places n).value = n * 10 ^ (-places : Int) := by
  rw [value, whole_ofUnits]
  by_cases hzero : places = 0
  · rw [hzero, fraction_ofUnits_zero, List.append_nil, ofDigits_digits, Nat.pow_zero, Nat.div_one,
      List.length_nil]
  · have hlength := length_paddedDigits_of_lt (Nat.pos_of_ne_zero hzero)
      (Nat.mod_lt n (Nat.pow_pos (by decide) : 0 < 10 ^ places))
    rw [fraction_ofUnits_of_ne_zero hzero, ofDigits_append, ofDigits_digits,
      ofDigits_paddedDigits, hlength, Nat.div_add_mod]

-----------------------------------------------------------------------------------------
-- Zeros at the end
-----------------------------------------------------------------------------------------

theorem getLast?_dropZerosEnd (cs : List Char)
    : (dropZerosEnd cs).getLast? ≠ some '0' := by
  have hfirst := List.head?_dropWhile_not (· == '0') cs.reverse
  rw [dropZerosEnd, List.getLast?_reverse]
  intro hzero
  rw [hzero] at hfirst
  simp at hfirst

theorem dropZerosEnd_append_cons (cs ds : List Char) {c : Char} (hc : c ≠ '0')
    : dropZerosEnd (cs ++ c :: ds) = cs ++ c :: dropZerosEnd ds := by
  rw [dropZerosEnd, List.reverse_append, List.reverse_cons, List.append_assoc,
    List.dropWhile_append]
  split
  · next hall =>
      have hnil : ds.reverse.dropWhile (· == '0') = [] := by simpa using hall
      simp [dropZerosEnd, hnil, hc]
  · simp [dropZerosEnd]

/-- The same digits without the zeros at the end of the fraction. -/
def trimmed (d : PlainDigits) : PlainDigits where
  whole := d.whole
  fraction := dropZerosEnd d.fraction
  nonempty := d.nonempty
  isDigit_whole := d.isDigit_whole
  isDigit_fraction := fun c hc => d.isDigit_fraction c (mem_of_mem_dropZerosEnd hc)

@[simp] theorem whole_trimmed (d : PlainDigits)
    : d.trimmed.whole = d.whole :=
  rfl

@[simp] theorem fraction_trimmed (d : PlainDigits)
    : d.trimmed.fraction = dropZerosEnd d.fraction :=
  rfl

/-- Zeros are taken off the fraction only, and the point with the last digit of it. -/
theorem text_trimmed (d : PlainDigits)
    : d.trimmed.text = trimFraction d.text := by
  have hpoint : '.' ∉ d.whole := fun h => absurd (d.isDigit_whole _ h) (by decide)
  unfold text
  rw [whole_trimmed, fraction_trimmed]
  by_cases hempty : d.fraction = []
  · rw [hempty]
    exact (if_neg hpoint).symm
  · have hin : '.' ∈ d.whole ++ '.' :: d.fraction := by simp
    rw [if_neg hempty, trimFraction, if_pos hin]
    dsimp only
    rw [dropZerosEnd_append_cons d.whole d.fraction (by decide : '.' ≠ '0')]
    by_cases hkept : dropZerosEnd d.fraction = []
    · rw [if_pos hkept, hkept, if_pos (by simp)]
      simp
    · rw [if_neg hkept, if_neg]
      intro hlast
      have hmem : '.' ∈ dropZerosEnd d.fraction := by
        obtain ⟨c, cs, hcs⟩ := List.exists_cons_of_ne_nil hkept
        rw [List.getLast?_append_cons, hcs, List.getLast?_cons_cons, ← hcs] at hlast
        exact List.mem_of_getLast? hlast
      exact absurd (d.isDigit_fraction _ (mem_of_mem_dropZerosEnd hmem)) (by decide)

/-- Zeros at the end of a fraction count for nothing. -/
theorem value_trimmed (d : PlainDigits)
    : d.trimmed.value = d.value := by
  obtain ⟨k, hk⟩ := dropZerosEnd_append d.fraction
  rw [← dropZerosEnd] at hk
  have hdigits
      : ofDigits (d.whole ++ d.fraction) =
          10 ^ k * ofDigits (d.whole ++ dropZerosEnd d.fraction) := by
    calc ofDigits (d.whole ++ d.fraction)
          = ofDigits ((d.whole ++ dropZerosEnd d.fraction) ++ List.replicate k '0') := by
            rw [List.append_assoc, ← hk]
      _ = 10 ^ k * ofDigits (d.whole ++ dropZerosEnd d.fraction) := by
            rw [ofDigits_append, ofDigits_replicate_zero, List.length_replicate, Nat.add_zero]
  have hlength : -((dropZerosEnd d.fraction).length : Int) = k + -(d.fraction.length : Int) := by
    have := congrArg List.length hk
    rw [List.length_append, List.length_replicate] at this
    omega
  rw [value, value, whole_trimmed, fraction_trimmed, hdigits, hlength, zpow_add₀ (by norm_num), zpow_natCast]
  push_cast
  ring

end PlainDigits

/-- The text denotes the rational number in digits that have at most a point among them, and it
ends neither in the point nor in a zero after it. -/
def Trimmed (cs : List Char) (v : ℚ) : Prop :=
  ∃ d : PlainDigits, cs = d.text ∧ v = d.value ∧ d.fraction.getLast? ≠ some '0'

theorem Trimmed.spells {cs : List Char} {v : ℚ} (h : Trimmed cs v)
    : Spells cs v := by
  obtain ⟨d, rfl, rfl, -⟩ := h
  exact d.spells_text

theorem Trimmed.spells_append {cs : List Char} {v : ℚ} (h : Trimmed cs v) (e : Int)
    : Spells (cs ++ exponentPart e) (v * 10 ^ e) := by
  obtain ⟨d, rfl, rfl, -⟩ := h
  exact d.spells_text_append e

theorem trimmed_pointed (places n : Nat)
    : Trimmed (trimFraction (pointed places n)) (n * 10 ^ (-places : Int)) := by
  refine ⟨(PlainDigits.ofUnits places n).trimmed, ?_, ?_, PlainDigits.getLast?_dropZerosEnd _⟩
  · rw [PlainDigits.text_trimmed, PlainDigits.text_ofUnits]
  · rw [PlainDigits.value_trimmed, PlainDigits.value_ofUnits]

-----------------------------------------------------------------------------------------
-- The two notations
-----------------------------------------------------------------------------------------

/-- The text of a number of six significant digits in general notation: plain if the exponent of
the first digit is small, else with an exponent part. -/
structure IsGeneral (s : Significant) (cs : List Char) : Prop where
  spells : Spells cs (s.value 6)
  plain : -4 ≤ s.exponent ∧ s.exponent < 6 → Trimmed cs (s.value 6)
  scientific
    : s.exponent < -4 ∨ 6 ≤ s.exponent →
        ∃ mantissa ds,
          cs = mantissa ++ 'e' :: (if s.exponent < 0 then '-' else '+') :: ds
          ∧ Trimmed mantissa (s.units * 10 ^ (-5 : Int))
          ∧ 2 ≤ ds.length
          ∧ (∀ c ∈ ds, c.isDigit = true)
          ∧ (ofDigits ds : Int) = |s.exponent|

/-- The value of six digits with the places that their exponent leaves. -/
theorem Significant.value_eq_of_plain {s : Significant} (hplain : s.exponent < 6)
    : s.value 6 = s.units * 10 ^ (-((5 - s.exponent).toNat) : Int) := by
  rw [value, unit]
  congr 2
  omega

theorem Significant.spells_pointed_of_plain {s : Significant} (hplain : s.exponent < 6)
    : Spells (pointed (5 - s.exponent).toNat s.units) (s.value 6) := by
  rw [value_eq_of_plain hplain, ← PlainDigits.value_ofUnits, ← PlainDigits.text_ofUnits]
  exact PlainDigits.spells_text _

/-- The value of six digits, one of them before the point, times a power of ten. -/
theorem Significant.value_eq_mul_pow (s : Significant)
    : s.value 6 = s.units * 10 ^ (-5 : Int) * 10 ^ s.exponent := by
  rw [value, unit, mul_assoc, ← zpow_add₀ (by norm_num)]
  congr 2
  push_cast
  ring

section

variable {r : Ratio} (hn : 0 < r.num) (hd : 0 < r.den)

include hn hd

/-- With the places that the exponent leaves the digits are the same ones. -/
theorem round_scale_places (hplain : (r.significant 6).exponent < 6)
    : (r.scale 10 (5 - (r.significant 6).exponent).toNat).round = (r.significant 6).units := by
  have hplaces
      : ((5 - (r.significant 6).exponent).toNat : Int) =
          (6 : Nat) - 1 - (r.significant 6).exponent := by
    omega
  rw [hplaces]
  exact Ratio.round_scale_significant hn hd (by decide)

/-- Both notations are written from the digits of the first rounding. -/
theorem general_eq
    : r.general =
        if (r.significant 6).exponent < -4 ∨ 6 ≤ (r.significant 6).exponent then
          trimFraction (pointed 5 (r.significant 6).units)
            ++ exponentPart (r.significant 6).exponent
        else
          trimFraction
            (pointed (5 - (r.significant 6).exponent).toNat (r.significant 6).units) := by
  change (if (r.significant 6).exponent < -4 ∨ 6 ≤ (r.significant 6).exponent then _
    else trimFraction (pointed (5 - (r.significant 6).exponent).toNat
      (r.scale 10 (5 - (r.significant 6).exponent).toNat).round)) = _
  split
  · rfl
  · next hplain =>
      rw [round_scale_places hn hd (lt_of_not_ge fun h => hplain (Or.inr h))]

/-- What is written is general notation, by the cases of the exponent. -/
theorem isGeneral_general
    : IsGeneral (r.significant 6) r.general := by
  generalize hs : r.significant 6 = s
  have hgeneral := general_eq hn hd
  rw [hs] at hgeneral
  by_cases hscientific : s.exponent < -4 ∨ 6 ≤ s.exponent
  · rw [if_pos hscientific] at hgeneral
    have hmantissa := trimmed_pointed 5 s.units
    refine ⟨?_, fun h => by omega, fun _ => ?_⟩
    · rw [hgeneral, s.value_eq_mul_pow]
      exact hmantissa.spells_append s.exponent
    · refine ⟨_, paddedDigits 2 s.exponent.natAbs, hgeneral, hmantissa, ?_,
        fun _ => isDigit_of_mem_paddedDigits, ?_⟩
      · rw [length_paddedDigits]
        exact le_max_left _ _
      · rw [ofDigits_paddedDigits, Int.natCast_natAbs]
  · rw [if_neg hscientific] at hgeneral
    have htrimmed : Trimmed r.general (s.value 6) := by
      rw [hgeneral, Significant.value_eq_of_plain (by omega)]
      exact trimmed_pointed _ _
    exact ⟨htrimmed.spells, fun _ => htrimmed, fun h => absurd h hscientific⟩

end

section

variable {x : Float}

/-- The negation of a positive value is written with a minus sign before it. -/
theorem general_neg (hx : 0 < x)
    : general (-x) = "-" ++ general x := by
  have hsign := zero_lt_iff_sign?.mp hx
  rw [general, general, ofFloat_neg, ofFloat_eq_ofUnpacked]
  rw [sign?] at hsign
  cases hu : x.toModel.unpack with
  | notANumber | zero =>
      rw [hu] at hsign
      cases hsign
  | infinity s =>
      rw [hu] at hsign
      cases hsign
      rfl
  | finite s m e hm =>
      rw [hu] at hsign
      cases hsign
      exact @String.ofList_append ['-'] _

/-- A finite value other than zero is written as the nearest number of six significant digits, the
even one of two, in plain notation where its exponent allows it and else with an exponent part; to
round the value again to the places of the plain notation gives the same number. -/
theorem exists_nearest_general (finite : x.isFinite = true) (nonzero : (x == 0) = false)
    : ∃ s cs,
        s.Nearest 6 |value x|
        ∧ (∀ t : Significant, t.Nearest 6 |value x| → t = s)
        ∧ general x = String.ofList (signed (decide (value x < 0)) cs)
        ∧ IsGeneral s cs
        ∧ (-4 ≤ s.exponent ∧ s.exponent < 6 →
            ∃ ds,
              fixed (5 - s.exponent).toNat x = String.ofList (signed (decide (value x < 0)) ds)
              ∧ Spells ds (s.value 6)
              ∧ trimFraction ds = cs)
        ∧ (0 < x → general (-x) = "-" ++ general x) := by
  obtain ⟨m, e, hm, hnumber, hvalue⟩ := exists_ofFloat_eq finite nonzero
  have hn : 0 < (binaryRatio m e).num := Nat.mul_pos hm (Nat.pow_pos (by decide))
  have hd : 0 < (binaryRatio m e).den := Ratio.den_scale_pos Nat.one_pos (by decide) _
  have hnearest := Ratio.nearest_significant hn hd (by decide : 2 ≤ 6)
  rw [value_binaryRatio, ← hvalue] at hnearest
  refine ⟨_, _, hnearest, fun t ht => hnearest.eq ht (by decide), ?_, isGeneral_general hn hd,
    fun hplain => ?_, general_neg⟩
  · rw [general, hnumber, generalChars, if_neg hm.ne']
  · refine ⟨_, ?_, Significant.spells_pointed_of_plain hplain.2, ?_⟩
    · rw [fixed, hnumber, fixedChars, round_scale_places hn hd hplain.2]
    · rw [general_eq hn hd, if_neg (by omega)]

/-- Half a unit below a power of ten, six digits carry into the exponent that needs another
notation. -/
theorem exists_nearest_general_carry
    : (999999.5 : Float).isFinite = true
      ∧ ((999999.5 : Float) == 0) = false
      ∧ general 999999.5 = "1e+06"
      ∧ ∃ s : Significant, s.Nearest 6 |value 999999.5| ∧ IsGeneral s ['1', 'e', '+', '0', '6'] := by
  have finite : (999999.5 : Float).isFinite = true := by decide
  have nonzero : ((999999.5 : Float) == 0) = false := by decide
  have htext : general 999999.5 = "1e+06" := by decide +kernel
  have hpos : 0 < value 999999.5 := (zero_lt_iff_of_isFinite finite).mp (by decide)
  obtain ⟨s, cs, hnearest, -, hcs, hgeneral, -⟩ := exists_nearest_general finite nonzero
  rw [htext, decide_eq_false hpos.not_gt] at hcs
  have hchars : cs = ['1', 'e', '+', '0', '6'] := String.ofList_injective hcs.symm
  exact ⟨finite, nonzero, htext, s, hnearest, hchars ▸ hgeneral⟩

end

end BenchLog.Decimal
