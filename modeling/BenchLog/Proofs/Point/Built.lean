import BenchLog.Point.Merge
import BenchLog.Proofs.Text.Trimmed
import Mathlib.Tactic.SplitIfs

/-! The points that the operations on points produce.
Whatever is merged or averaged, the three texts of a point have no blanks around them.
-/

namespace BenchLog.Point

/-- The point comes from the constructors by merging and averaging. -/
inductive Built : Point → Prop
  | ofCount (benchmark : String) (processors : UInt32) (time : Float)
    (inputParams outputData : String) (count : Nat)
    : Built (ofCount benchmark processors time inputParams outputData count)
  | merge (policy : Policy) {p q : Point} (left : Built p) (right : Built q)
    : Built (merge policy p q).value
  | averaged {p : Point} (built : Built p) : Built p.averaged
  | trimmed {p : Point} (built : Built p) : Built p.trimmed

/-- The texts of the point have no blanks around them. -/
structure TrimmedTexts (p : Point) : Prop where
  benchmark : Text.Trimmed p.benchmark.toList
  inputParams : Text.Trimmed p.inputParams.toList
  outputData : Text.Trimmed p.outputData.toList

theorem trimmed_trim (s : String)
    : Text.Trimmed (Text.trim s).toList := by
  rw [Text.trim, String.toList_ofList]
  exact Text.trimmed_trimChars _

/-- Two joined texts begin as the first does and end as the second does. -/
theorem trimmed_joinOutputs {a b : String} (ha : Text.Trimmed a.toList)
    (hb : Text.Trimmed b.toList)
    : Text.Trimmed (joinOutputs a b).toList := by
  unfold joinOutputs
  split_ifs with h
  · obtain ⟨hna, hnb⟩ := h
    obtain ⟨c, cs, hc⟩ := List.exists_cons_of_ne_nil (fun he => hna (String.toList_eq_nil_iff.mp he))
    have hend : b.toList ≠ [] := fun he => hnb (String.toList_eq_nil_iff.mp he)
    rw [String.toList_append, String.toList_append]
    constructor
    · intro d hd
      apply ha.1
      simpa [hc] using hd
    · intro d hd
      apply hb.2
      obtain ⟨l, hl⟩ := Option.isSome_iff_exists.mp (List.getLast?_isSome.mpr hend)
      rwa [List.getLast?_append, hl, Option.some_or, ← hl] at hd
  · rw [String.toList_append]
    by_cases hna : a = ""
    · simpa [hna] using hb
    · have hnb : b = "" := Decidable.of_not_not fun hnb => h ⟨hna, hnb⟩
      simpa [hnb] using ha

/-- Merging takes each text from one of the points, or joins the two outputs. -/
theorem outputData_absorb (policy : Policy) (p q : Point)
    : (p.absorb policy q).outputData = p.outputData
      ∨ (p.absorb policy q).outputData = q.outputData
      ∨ policy = .sum ∧ (p.absorb policy q).outputData = joinOutputs p.outputData q.outputData := by
  cases policy with
  | sum => exact Or.inr (Or.inr ⟨rfl, rfl⟩)
  | min =>
      simp only [absorb]
      split
      · exact Or.inr (Or.inl rfl)
      · exact Or.inl rfl
  | max =>
      simp only [absorb]
      split
      · exact Or.inr (Or.inl rfl)
      · exact Or.inl rfl
  | last => exact Or.inr (Or.inl rfl)
  | warn => exact Or.inl rfl

/-- A merged point keeps the texts trimmed, by the cases of its output. -/
theorem TrimmedTexts.merge (policy : Policy) {p q : Point} (hp : p.TrimmedTexts)
    (hq : q.TrimmedTexts)
    : (merge policy p q).value.TrimmedTexts := by
  by_cases hkey : p.key = q.key
  · rw [value_merge hkey]
    have hk := key_absorb policy p q
    simp only [key, Key.mk.injEq] at hk
    obtain ⟨hb, hi, -⟩ := hk
    refine ⟨hb ▸ hp.benchmark, hi ▸ hp.inputParams, ?_⟩
    rcases outputData_absorb policy p q with ho | ho | ⟨-, ho⟩
    · exact ho ▸ hp.outputData
    · exact ho ▸ hq.outputData
    · exact ho ▸ trimmed_joinOutputs hp.outputData hq.outputData
  · rw [Point.merge, if_neg hkey]
    exact hp

/-- Every point that is built has trimmed texts, by induction on the operations. -/
theorem Built.trimmedTexts {p : Point} (h : p.Built)
    : p.TrimmedTexts := by
  induction h with
  | ofCount => exact ⟨trimmed_trim _, trimmed_trim _, trimmed_trim _⟩
  | merge policy _ _ hp hq => exact hp.merge policy hq
  | averaged _ ih =>
      unfold Point.averaged
      split
      · exact ⟨ih.benchmark, ih.inputParams, ih.outputData⟩
      · exact ih
  | trimmed _ ih =>
      unfold Point.trimmed
      split
      · exact ⟨ih.benchmark, ih.inputParams, ih.outputData⟩
      · exact ih

end BenchLog.Point
