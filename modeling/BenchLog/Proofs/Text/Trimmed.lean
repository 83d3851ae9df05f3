import Mathlib.Data.List.DropRight
import BenchLog.Text.Blank

/-! Texts without blanks around them.
A trimmed text has no blank at either end, and trimming removes nothing else.
-/

namespace BenchLog.Text

/-- A text that has no blank at either end. -/
def Trimmed (cs : List Char) : Prop :=
  (∀ c ∈ cs.head?, isBlank c = false) ∧ (∀ c ∈ cs.getLast?, isBlank c = false)

variable {cs ds : List Char} {c : Char}

-----------------------------------------------------------------------------------------
-- The ends of a text
-----------------------------------------------------------------------------------------

theorem dropBlankEnd_eq_rdropWhile (cs : List Char)
    : dropBlankEnd cs = cs.rdropWhile isBlank :=
  rfl

theorem dropBlankEnd_prefix_self (cs : List Char)
    : dropBlankEnd cs <+: cs := by
  rw [dropBlankEnd_eq_rdropWhile]
  exact List.rdropWhile_prefix isBlank cs

theorem isBlank_of_mem_head?_dropBlank (h : c ∈ (dropBlank cs).head?)
    : isBlank c = false := by
  have hfirst := List.head?_dropWhile_not isBlank cs
  rw [Option.mem_def, dropBlank] at h
  rw [h] at hfirst
  exact hfirst

theorem isBlank_of_mem_getLast?_dropBlankEnd (h : c ∈ (dropBlankEnd cs).getLast?)
    : isBlank c = false := by
  obtain ⟨hne, rfl⟩ := List.mem_getLast?_eq_getLast h
  exact Bool.eq_false_iff.mpr (List.rdropWhile_last_not isBlank cs hne)

theorem dropBlank_eq_self (h : ∀ c ∈ cs.head?, isBlank c = false)
    : dropBlank cs = cs := by
  rw [dropBlank, List.dropWhile_eq_self_iff]
  intro hlength
  rw [h cs[0] (List.head?_eq_getElem? ▸ List.getElem?_eq_getElem hlength)]
  exact Bool.false_ne_true

theorem dropBlankEnd_eq_self (h : ∀ c ∈ cs.getLast?, isBlank c = false)
    : dropBlankEnd cs = cs := by
  rw [dropBlankEnd_eq_rdropWhile, List.rdropWhile_eq_self_iff]
  intro hne
  rw [h (cs.getLast hne) (List.getLast?_eq_some_getLast hne)]
  exact Bool.false_ne_true

-----------------------------------------------------------------------------------------
-- Trimming
-----------------------------------------------------------------------------------------

/-- Trimming leaves a trimmed text, since dropping at the end keeps the first character. -/
theorem trimmed_trimChars (cs : List Char)
    : Trimmed (trimChars cs) := by
  refine ⟨fun c hc => ?_, fun c hc => isBlank_of_mem_getLast?_dropBlankEnd hc⟩
  obtain ⟨rest, hrest⟩ := dropBlankEnd_prefix_self (dropBlank cs)
  have hfirst : c ∈ (dropBlank cs).head? := by
    rw [Option.mem_def, trimChars] at hc
    rw [← hrest, List.head?_append, hc]
    rfl
  exact isBlank_of_mem_head?_dropBlank hfirst

theorem trimChars_of_trimmed (h : Trimmed cs)
    : trimChars cs = cs := by
  rw [trimChars, dropBlank_eq_self h.1, dropBlankEnd_eq_self h.2]

/-- What is left by trimming stood in the text as it is. -/
theorem trimChars_isInfix (cs : List Char)
    : trimChars cs <:+: cs :=
  (dropBlankEnd_prefix_self _).isInfix.trans (List.dropWhile_suffix isBlank).isInfix

theorem trimmed_singleton (h : isBlank c = false)
    : Trimmed [c] := by
  simp [Trimmed, h]

/-- Two texts without blanks at their ends have none at the ends when they are joined. -/
theorem Trimmed.append (hc : Trimmed cs) (hd : Trimmed ds)
    : Trimmed (cs ++ ds) := by
  constructor
  · intro c h
    rw [List.head?_append, Option.mem_def, Option.or_eq_some_iff] at h
    rcases h with h | ⟨-, h⟩
    · exact hc.1 c h
    · exact hd.1 c h
  · intro c h
    rw [List.getLast?_append, Option.mem_def, Option.or_eq_some_iff] at h
    rcases h with h | ⟨-, h⟩
    · exact hd.2 c h
    · exact hc.2 c h

/-- A text without blanks at its ends stays when more is put behind it and all of it trimmed. -/
theorem Trimmed.prefix_trimChars (h : Trimmed cs) (hne : cs ≠ []) (ds : List Char)
    : cs <+: trimChars (cs ++ ds) := by
  have hfront : dropBlank (cs ++ ds) = cs ++ ds := by
    obtain ⟨c, rest, rfl⟩ := List.exists_cons_of_ne_nil hne
    exact dropBlank_eq_self h.1
  have hback : cs.reverse.dropWhile isBlank = cs.reverse := dropBlank_eq_self (by simpa using h.2)
  rw [trimChars, hfront, dropBlankEnd, List.reverse_append, List.dropWhile_append, hback]
  split
  · simp
  · simp

theorem trimChars_space_cons (cs : List Char)
    : trimChars (' ' :: cs) = trimChars cs :=
  rfl

theorem trimChars_trimChars (cs : List Char)
    : trimChars (trimChars cs) = trimChars cs :=
  trimChars_of_trimmed (trimmed_trimChars cs)

theorem trim_trim (s : String)
    : trim (trim s) = trim s := by
  simp [trim, trimChars_trimChars]

end BenchLog.Text
