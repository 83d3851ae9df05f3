import BenchLog.Proofs.Point.Shape
import Mathlib.Data.List.Infix

/-! Texts that look like the border between an input and an output.
An output with such a place in it can be read in part as input. Without one, the fields that are
written come before all others.
-/

namespace BenchLog.PointLine

/-- A text in which an input may end and an output begin. -/
def HasSeparator (cs : List Char) : Prop :=
  ∃ before w₂ w₃ after,
    Blanks w₂
    ∧ Blanks w₃
    ∧ cs = before ++ ']' :: (w₂ ++ ',' :: (w₃ ++ '[' :: after))

/-- A separator begins at some closing bracket. -/
theorem hasSeparator_iff {cs : List Char}
    : HasSeparator cs ↔
        ∃ t ∈ cs.tails, t.head? = some ']' ∧ (nextBracket? t.tail).isSome = true := by
  constructor
  · rintro ⟨before, w₂, w₃, after, h₂, h₃, rfl⟩
    refine ⟨_, (List.mem_tails _ _).mpr (List.suffix_append _ _), rfl, ?_⟩
    exact Option.isSome_iff_exists.mpr ⟨_, nextBracket?_eq_some_iff.mpr ⟨w₂, w₃, h₂, h₃, rfl⟩⟩
  · rintro ⟨t, ht, hhead, hnext⟩
    obtain ⟨before, rfl⟩ := (List.mem_tails _ _).mp ht
    obtain ⟨rest, rfl⟩ := List.head?_eq_some_iff.mp hhead
    obtain ⟨after, hafter⟩ := Option.isSome_iff_exists.mp hnext
    obtain ⟨w₂, w₃, h₂, h₃, hrest⟩ := nextBracket?_eq_some_iff.mp hafter
    exact ⟨before, w₂, w₃, after, h₂, h₃, by rw [← hrest]; rfl⟩

instance : DecidablePred HasSeparator :=
  fun _ => decidable_of_iff _ hasSeparator_iff.symm

theorem HasSeparator.of_isInfix {cs ds : List Char} (h : HasSeparator cs) (hi : cs <:+: ds)
    : HasSeparator ds := by
  obtain ⟨before, w₂, w₃, after, h₂, h₃, rfl⟩ := h
  obtain ⟨left, right, rfl⟩ := hi
  exact ⟨left ++ before, w₂, w₃, after ++ right, h₂, h₃, by simp⟩

/-- The end of a line with a separator in its output can be read with a longer input. -/
theorem FieldsOf.exists_longer {cs input output : List Char} (hcs : '\n' ∉ cs)
    (h : FieldsOf cs input output) (hs : HasSeparator output)
    : ∃ longer beside, FieldsOf cs longer beside ∧ input.length < longer.length := by
  obtain ⟨_, w₂, w₃, _, _, _, rfl, _, w, rest, hw, hr, rfl⟩ := h
  obtain ⟨before, v₂, v₃, after, h₂, h₃, rfl⟩ := hs
  simp only [List.mem_append, List.mem_cons, not_or] at hcs
  refine ⟨input ++ ']' :: (w₂ ++ ',' :: (w₃ ++ '[' :: before)), after, ⟨?_, ?_⟩, by simp⟩
  · simp [hcs]
  · have hafter : OutputOf (after ++ ']' :: (w ++ rest)) after :=
      ⟨by simp [hcs], w, rest, hw, hr, rfl⟩
    exact ⟨v₂, v₃, _, h₂, h₃, by simp, hafter⟩

-----------------------------------------------------------------------------------------
-- The end of a written line
-----------------------------------------------------------------------------------------

/-- What is written behind the bracket that opens the input. -/
def bracketed (input output : List Char) : List Char :=
  input ++ ']' :: ',' :: ' ' :: '[' :: (output ++ [']'])

theorem blanks_space
    : Blanks [' '] := by
  simp only [Blanks, List.mem_singleton, forall_eq]
  decide

theorem fieldsOf_bracketed {input output : List Char} (hi : '\n' ∉ input) (ho : '\n' ∉ output)
    : FieldsOf (bracketed input output) input output := by
  have houtput : OutputOf (output ++ [']']) output :=
    ⟨ho, [], [], by simp [Blanks], by simp, rfl⟩
  exact ⟨hi, [], [' '], _, by simp [Blanks], blanks_space, rfl, houtput⟩

/-- A longer input begins with the one that is written and its bracket. -/
theorem prefix_of_longer {input rest longer beside : List Char}
    (h : FieldsOf (input ++ ']' :: rest) longer beside) (hl : input.length < longer.length)
    : input ++ [']'] <+: longer := by
  obtain ⟨_, w₂, w₃, _, _, _, he, _⟩ := h
  have hwritten : input ++ [']'] <+: input ++ ']' :: rest := ⟨rest, by simp⟩
  have hlonger : longer <+: input ++ ']' :: rest := by
    rw [he]
    exact List.prefix_append _ _
  apply List.prefix_of_prefix_length_le hwritten hlonger
  rw [List.length_append]
  exact hl

/-- With an input of the written length, the output is read behind the bracket that opens it. -/
theorem FieldsOf.outputOf_of_length_eq {input rest input' output' : List Char}
    (h : FieldsOf (input ++ ']' :: ',' :: ' ' :: '[' :: rest) input' output')
    (hl : input'.length = input.length)
    : input' = input ∧ OutputOf rest output' := by
  obtain ⟨_, w₂, w₃, _, h₂, h₃, he, houtput⟩ := h
  obtain ⟨rfl, hrest⟩ := List.append_inj he hl.symm
  have hnext := nextBracket?_eq_some_iff.mpr ⟨w₂, w₃, h₂, h₃, (List.cons.inj hrest).2⟩
  obtain rfl := Option.some.inj hnext
  exact ⟨rfl, houtput⟩

/-- An input that reaches beyond the one that is written takes in its bracket, and then the
separator after it lies in the output. -/
theorem hasSeparator_of_longer {input output longer beside : List Char}
    (h : FieldsOf (bracketed input output) longer beside) (hl : input.length < longer.length)
    : HasSeparator output := by
  obtain ⟨more, rfl⟩ := prefix_of_longer h hl
  obtain ⟨_, w₂, w₃, _, h₂, h₃, he, _, w, rest, _, _, rfl⟩ := h
  simp only [bracketed, List.append_assoc, List.cons_append, List.nil_append,
    List.append_cancel_left_eq, List.cons.injEq, true_and] at he
  -- The further input goes on with what is written between the two fields.
  obtain _ | ⟨_, _ | ⟨_, _ | ⟨_, before⟩⟩⟩ := more
  · simp at he
  · simp at he
  · simp at he
  · simp only [List.cons_append, List.cons.injEq] at he
    obtain ⟨-, -, -, he⟩ := he
    rcases List.eq_nil_or_concat (beside ++ ']' :: (w ++ rest)) with hnil | ⟨after, c, hend⟩
    · simp at hnil
    · rw [hend] at he
      have hlast : before ++ ']' :: (w₂ ++ ',' :: (w₃ ++ '[' :: after)) ++ [c] = output ++ [']'] := by
        simp [he]
      exact ⟨before, w₂, w₃, after, h₂, h₃, (List.append_inj' hlast rfl).1.symm⟩

/-- Without a separator in the output, the fields that are written come before all others. -/
theorem FieldsOf.precedes_bracketed {input output input' output' : List Char}
    (hs : ¬ HasSeparator output) (h : FieldsOf (bracketed input output) input' output')
    : input'.length < input.length
      ∨ input'.length = input.length ∧ output'.length ≤ output.length := by
  rcases Nat.lt_trichotomy input'.length input.length with hl | hl | hl
  · exact Or.inl hl
  · refine Or.inr ⟨hl, ?_⟩
    obtain ⟨-, -, w, rest, -, -, hrest⟩ := h.outputOf_of_length_eq hl
    have hlength := congrArg List.length hrest
    simp only [List.length_append, List.length_cons, List.length_nil] at hlength
    omega
  · exact absurd (hasSeparator_of_longer h hl) hs

-----------------------------------------------------------------------------------------
-- Text after a written line
-----------------------------------------------------------------------------------------

theorem exists_of_append_eq {α : Type} {a : α} {xs ys before after : List α} (ha : a ∉ ys)
    (h : xs ++ ys = before ++ a :: after)
    : ∃ between, xs = before ++ a :: between := by
  rcases List.append_eq_append_iff.mp h with ⟨more, -, hys⟩ | ⟨more, hxs, hafter⟩
  · exact absurd (hys ▸ List.mem_append_right more List.mem_cons_self) ha
  · rcases List.cons_eq_append_iff.mp hafter with ⟨-, hys⟩ | ⟨between, rfl, -⟩
    · exact absurd (hys ▸ List.mem_cons_self) ha
    · exact ⟨between, hxs⟩

/-- A text after which no bracket closes makes no other fields. -/
theorem fieldsOf_append_iff {cs text input output : List Char} (hcs : '\n' ∉ cs)
    (htext : '\n' ∉ text) (hbracket : ']' ∉ text)
    : FieldsOf (cs ++ text) input output ↔ FieldsOf cs input output := by
  constructor
  · rintro ⟨hi, w₂, w₃, _, h₂, h₃, he, ho, w, rest, -, -, rfl⟩
    -- the bracket that closes the output stands before the text
    have hsplit
        : cs ++ text =
            (input ++ ']' :: (w₂ ++ ',' :: (w₃ ++ '[' :: output))) ++ ']' :: (w ++ rest) := by
      rw [he]
      simp
    obtain ⟨between, rfl⟩ := exists_of_append_eq hbracket hsplit
    have hbetween : '\n' ∉ between := fun hc => hcs (by simp [hc])
    refine ⟨hi, w₂, w₃, output ++ ']' :: between, h₂, h₃, by simp, ho, [], between, ?_, hbetween, rfl⟩
    simp [Blanks]
  · rintro ⟨hi, w₂, w₃, _, h₂, h₃, rfl, ho, w, rest, hw, hr, rfl⟩
    refine ⟨hi, w₂, w₃, output ++ ']' :: (w ++ (rest ++ text)), h₂, h₃, by simp, ho, w, rest ++ text,
      hw, ?_, rfl⟩
    simp [hr, htext]

/-- A text after which a bracket closes can be read as part of the output. -/
theorem fieldsOf_bracketed_append {input output before after : List Char} (hi : '\n' ∉ input)
    (ho : '\n' ∉ output) (hbefore : '\n' ∉ before) (hafter : '\n' ∉ after)
    : FieldsOf (bracketed input output ++ (before ++ ']' :: after)) input
        (output ++ ']' :: before) := by
  refine ⟨hi, [], [' '], output ++ ']' :: (before ++ ']' :: after), by simp [Blanks], blanks_space,
    by simp [bracketed], ?_, [], after, by simp [Blanks], hafter, by simp⟩
  simp [ho, hbefore]

end BenchLog.PointLine
