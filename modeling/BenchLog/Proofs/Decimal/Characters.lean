import BenchLog.Decimal.General
import BenchLog.Proofs.Decimal.ReadBack

/-! The characters of decimal texts.
Whatever its layout, a number is written in digits, signs, points and a few letters, so that what
holds of these holds of all characters of a number.
-/

namespace BenchLog.Decimal

/-- A character that the text of a number may have in it. -/
def IsNumeric (c : Char) : Prop :=
  c.isDigit = true ∨ c ∈ ['+', '-', '.', 'e', 'i', 'n', 'f', 'N', 'a']

instance (c : Char) : Decidable (IsNumeric c) :=
  inferInstanceAs (Decidable (_ ∨ _))

section

variable {cs ds : List Char}

theorem isNumeric_of_all (h : cs.all (fun c => decide (IsNumeric c)) = true)
    : ∀ c ∈ cs, IsNumeric c := by
  simpa using h

theorem isNumeric_digits (n : Nat)
    : ∀ c ∈ digits n, IsNumeric c :=
  fun _ hc => Or.inl (isDigit_of_mem_digits hc)

theorem isNumeric_replicate_zero (n : Nat)
    : ∀ c ∈ List.replicate n '0', IsNumeric c :=
  fun _ hc => Or.inl (isDigit_of_mem_replicate hc)

theorem isNumeric_append (hc : ∀ c ∈ cs, IsNumeric c) (hd : ∀ c ∈ ds, IsNumeric c)
    : ∀ c ∈ cs ++ ds, IsNumeric c :=
  List.forall_mem_append.mpr ⟨hc, hd⟩

theorem isNumeric_cons {c : Char} (hc : IsNumeric c) (h : ∀ c ∈ cs, IsNumeric c)
    : ∀ d ∈ c :: cs, IsNumeric d :=
  List.forall_mem_cons.mpr ⟨hc, h⟩

theorem isNumeric_signed {negative : Bool} (h : ∀ c ∈ cs, IsNumeric c)
    : ∀ c ∈ signed negative cs, IsNumeric c := by
  cases negative with
  | true => exact isNumeric_cons (by decide) h
  | false => exact h

theorem isNumeric_paddedDigits (width n : Nat)
    : ∀ c ∈ paddedDigits width n, IsNumeric c :=
  isNumeric_append (isNumeric_replicate_zero _) (isNumeric_digits n)

theorem isNumeric_pointed (places n : Nat)
    : ∀ c ∈ pointed places n, IsNumeric c := by
  unfold pointed
  split
  · exact isNumeric_digits n
  · exact isNumeric_append (isNumeric_digits _)
      (isNumeric_cons (by decide) (isNumeric_paddedDigits _ _))

-----------------------------------------------------------------------------------------
-- A given count of places
-----------------------------------------------------------------------------------------

theorem isNumeric_fixedChars (places : Nat) (number : Number)
    : ∀ c ∈ fixedChars places number, IsNumeric c := by
  cases number with
  | nan => exact isNumeric_of_all (by decide : ['N', 'a', 'N'].all _ = true)
  | infinite negative => exact isNumeric_signed (isNumeric_of_all (by decide))
  | finite negative m e => exact isNumeric_signed (isNumeric_pointed _ _)

theorem isNumeric_fixed (places : Nat) (x : Float)
    : ∀ c ∈ (fixed places x).toList, IsNumeric c := by
  rw [fixed, String.toList_ofList]
  exact isNumeric_fixedChars _ _

-----------------------------------------------------------------------------------------
-- The fewest digits
-----------------------------------------------------------------------------------------

theorem isNumeric_significantDigits (n : Nat)
    : ∀ c ∈ significantDigits n, IsNumeric c := by
  obtain ⟨k, hk⟩ := digits_eq_significantDigits n
  intro c hc
  exact isNumeric_digits n c (by rw [hk]; exact List.mem_append_left _ hc)

theorem isNumeric_plainText (l : Layout) (h : ∀ c ∈ ds, IsNumeric c) (first : Int)
    : ∀ c ∈ l.plainText ds first, IsNumeric c := by
  have hzeros : ∀ n, ∀ c ∈ ds ++ List.replicate n '0', IsNumeric c :=
    fun n => isNumeric_append h (isNumeric_replicate_zero n)
  unfold Layout.plainText
  dsimp only
  split_ifs
  · exact isNumeric_cons (by decide)
      (isNumeric_cons (by decide) (isNumeric_append (isNumeric_replicate_zero _) h))
  · exact isNumeric_append (fun c hc => h c (List.mem_of_mem_take hc))
      (isNumeric_cons (by decide) fun c hc => h c (List.mem_of_mem_drop hc))
  · exact isNumeric_append (hzeros _) (isNumeric_of_all (by decide))
  · exact isNumeric_append (hzeros _) (isNumeric_of_all (by decide))

theorem isNumeric_scientificText (h : ∀ c ∈ ds, IsNumeric c) (first : Int)
    : ∀ c ∈ scientificText ds first, IsNumeric c := by
  have hsign : IsNumeric (if first < 0 then '-' else '+') := by split <;> decide
  refine isNumeric_append ?_
    (isNumeric_cons (by decide) (isNumeric_cons hsign (isNumeric_digits _)))
  match ds, h with
  | [], h => exact h
  | [d], h => exact h
  | d :: e :: rest, h =>
      obtain ⟨hd, hrest⟩ := List.forall_mem_cons.mp h
      exact isNumeric_cons hd (isNumeric_cons (by decide) hrest)

/-- A layout adds characters of its own only to what is no number. -/
theorem isNumeric_numberText {l : Layout} (hnan : ∀ c ∈ l.nan, IsNumeric c) (number : Number)
    : ∀ c ∈ l.numberText number, IsNumeric c := by
  cases number with
  | nan => exact hnan
  | infinite negative => exact isNumeric_signed (isNumeric_of_all (by decide))
  | finite negative m e =>
      apply isNumeric_signed
      split
      · exact isNumeric_plainText l (isNumeric_of_all (by decide)) _
      · unfold Layout.decimalText
        dsimp only
        split
        · exact isNumeric_plainText l (isNumeric_significantDigits _) _
        · exact isNumeric_scientificText (isNumeric_significantDigits _) _

-----------------------------------------------------------------------------------------
-- Six significant digits
-----------------------------------------------------------------------------------------

theorem mem_of_mem_dropZerosEnd {c : Char} (h : c ∈ dropZerosEnd cs)
    : c ∈ cs :=
  List.mem_reverse.mp ((List.dropWhile_sublist _).mem (List.mem_reverse.mp h))

theorem isNumeric_trimFraction (h : ∀ c ∈ cs, IsNumeric c)
    : ∀ c ∈ trimFraction cs, IsNumeric c := by
  have hkept : ∀ c ∈ dropZerosEnd cs, IsNumeric c :=
    fun c hc => h c (mem_of_mem_dropZerosEnd hc)
  unfold trimFraction
  dsimp only
  split
  · split
    · exact fun c hc => hkept c (List.mem_of_mem_dropLast hc)
    · exact hkept
  · exact h

theorem isNumeric_generalChars (number : Number)
    : ∀ c ∈ generalChars number, IsNumeric c := by
  cases number with
  | nan => exact isNumeric_of_all (by decide : ['n', 'a', 'n'].all _ = true)
  | infinite negative => exact isNumeric_signed (isNumeric_of_all (by decide))
  | finite negative m e =>
      apply isNumeric_signed
      split
      · exact isNumeric_of_all (by decide)
      · unfold Ratio.general
        dsimp only
        have htrimmed
            : ∀ places units, ∀ c ∈ trimFraction (pointed places units), IsNumeric c :=
          fun _ _ => isNumeric_trimFraction (isNumeric_pointed _ _)
        split
        · refine isNumeric_append (htrimmed _ _) (isNumeric_cons (by decide) ?_)
          refine isNumeric_cons ?_ (isNumeric_paddedDigits _ _)
          split <;> decide
        · exact htrimmed _ _

theorem isNumeric_general (x : Float)
    : ∀ c ∈ (general x).toList, IsNumeric c := by
  rw [general, String.toList_ofList]
  exact isNumeric_generalChars _

end

end BenchLog.Decimal
