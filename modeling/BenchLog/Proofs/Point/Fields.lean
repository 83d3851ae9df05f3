import BenchLog.Point.Line
import BenchLog.Proofs.Decimal.Characters
import BenchLog.Proofs.Text.Trimmed

/-! The numeric fields of the line of a point.
A time is read back bit for bit, whichever of its two spellings stands in the line, and so is the
count of processors; neither has a comma or a blank in it.
-/

namespace BenchLog

open Decimal

/-- A character that neither ends a field nor is stripped from one. -/
def IsInk (c : Char) : Prop :=
  Text.isBlank c = false ∧ c ≠ ','

instance (c : Char) : Decidable (IsInk c) :=
  inferInstanceAs (Decidable (_ ∧ _))

theorem isInk_of_all {cs : List Char} (h : cs.all (fun c => decide (IsInk c)) = true)
    : ∀ c ∈ cs, IsInk c := by
  simpa using h

theorem trimmed_of_isInk {cs : List Char} (h : ∀ c ∈ cs, IsInk c)
    : Text.Trimmed cs :=
  ⟨fun c hc => (h c (List.mem_of_mem_head? hc)).1, fun c hc => (h c (List.mem_of_mem_getLast? hc)).1⟩

/-- Numbers are written without blanks and commas. -/
theorem isInk_of_isNumeric {c : Char} (h : IsNumeric c)
    : IsInk c := by
  rcases h with h | h
  · simp only [Char.isDigit, Bool.and_eq_true, decide_eq_true_eq] at h
    have hl : 48 ≤ c.toNat := UInt32.le_iff_toNat_le.mp h.1
    have hh : c.toNat ≤ 57 := UInt32.le_iff_toNat_le.mp h.2
    constructor
    · simp only [Text.isBlank, Bool.or_eq_false_iff, Bool.and_eq_false_iff,
        decide_eq_false_iff_not, beq_eq_false_iff_ne]
      omega
    · rintro rfl
      exact absurd hl (by decide)
  · exact isInk_of_all (by decide) c h

theorem isInk_digits (n : Nat)
    : ∀ c ∈ digits n, IsInk c :=
  fun c hc => isInk_of_isNumeric (isNumeric_digits n c hc)

/-- A zero with six places has its sign and is read back with it. -/
theorem readFloat?_fixed_zero (negative : Bool)
    : readFloat? (fixed 6 (floatOfCode negative 0)) = some (floatOfCode negative 0) := by
  cases negative <;> decide +kernel

/-- A time is read back from the text that is written for it. Where six places are written they
read as an equal time, which is the same one but for zeros, and those keep their sign. -/
theorem readFloat?_timeText (time : Float)
    : readFloat? (timeText time) = some time := by
  have hshortest : readFloat? (timeLayout.text time) = some time := by
    rw [readFloat?, Layout.text, String.toList_ofList]
    exact readFloatChars?_numberText rfl (fun _ => rfl) rfl time
  unfold timeText
  dsimp only
  split
  · next read hread =>
      split
      · next heq =>
          rcases eq_of_beq heq with rfl | ⟨s, t, rfl, rfl⟩
          · exact hread
          · exact readFloat?_fixed_zero t
      · exact hshortest
  · exact hshortest

theorem isInk_timeText (time : Float)
    : ∀ c ∈ (timeText time).toList, IsInk c := by
  have hfixed : ∀ c ∈ (fixed 6 time).toList, IsInk c :=
    fun c hc => isInk_of_isNumeric (isNumeric_fixed 6 time c hc)
  have hshortest : ∀ c ∈ (timeLayout.text time).toList, IsInk c := by
    have hnan : ∀ c ∈ timeLayout.nan, IsNumeric c := isNumeric_of_all (by decide)
    rw [Layout.text, String.toList_ofList]
    exact fun c hc => isInk_of_isNumeric (isNumeric_numberText hnan _ c hc)
  unfold timeText
  dsimp only
  split
  · split
    · exact hfixed
    · exact hshortest
  · exact hshortest

theorem toList_toString (n : Nat)
    : (toString n).toList = digits n := by
  rw [Nat.toString_eq_repr, Nat.toList_repr, digits]

/-- A count of processors is read back from its digits. -/
theorem readWordChars?_digits (processors : UInt32)
    : readWordChars? (digits processors.toNat) = some processors := by
  have hd : ∀ c ∈ digits processors.toNat, c.isDigit = true := fun _ => isDigit_of_mem_digits
  unfold readWordChars?
  dsimp only
  split
  · next h => exact absurd (hd '+' (by simp [h])) (by decide)
  · rw [ofDigits_digits, if_pos ⟨digits_ne_nil _, List.all_eq_true.mpr hd, processors.toNat_lt⟩,
      UInt32.ofNat_toNat]

end BenchLog
