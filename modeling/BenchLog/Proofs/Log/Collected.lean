import BenchLog.Proofs.DataSet.Built
import BenchLog.Proofs.Log.Scan

/-! What is known of the points of every data set that is read from a log.
Their texts stand in single lines. A separator in an output has been joined from two outputs, which
the summing policy alone does.
-/

namespace BenchLog

open PointLine DataSet

-----------------------------------------------------------------------------------------
-- Points whose texts stand in single lines
-----------------------------------------------------------------------------------------

/-- The point is named, and its trimmed texts stand in single lines, the benchmark before a comma. -/
structure Point.Plain (p : Point) : Prop where
  named : p.isValid = true
  trimmed : p.TrimmedTexts
  comma : ',' ∉ p.benchmark.toList
  benchmark : '\n' ∉ p.benchmark.toList
  inputParams : '\n' ∉ p.inputParams.toList
  outputData : '\n' ∉ p.outputData.toList

/-- The point is plain and there is no separator in its output. -/
def Point.Unmixed (p : Point) : Prop :=
  p.Plain ∧ ¬ HasSeparator p.outputData.toList

namespace Point

theorem Plain.legible {p : Point} (h : p.Plain) (hs : ¬ HasSeparator p.outputData.toList)
    : p.Legible :=
  ⟨h.comma, h.inputParams, h.outputData, hs⟩

theorem Plain.not_mem_line {p : Point} (h : p.Plain)
    : '\n' ∉ p.line.toList :=
  Point.not_mem_line h.benchmark h.inputParams h.outputData

/-- A point of the same key is plain if its output is. -/
theorem Plain.of_key_eq {p q : Point} (h : p.Plain) (hkey : q.key = p.key)
    (htrimmed : Text.Trimmed q.outputData.toList) (hplain : '\n' ∉ q.outputData.toList)
    : q.Plain := by
  have hnamed := isValid_of_key_eq hkey.symm h.named
  simp only [key, Key.mk.injEq] at hkey
  obtain ⟨hb, hi, -⟩ := hkey
  exact ⟨hnamed, ⟨hb ▸ h.trimmed.benchmark, hi ▸ h.trimmed.inputParams, htrimmed⟩, hb ▸ h.comma,
    hb ▸ h.benchmark, hi ▸ h.inputParams, hplain⟩

theorem not_mem_joinOutputs {a b : String} (ha : '\n' ∉ a.toList) (hb : '\n' ∉ b.toList)
    : '\n' ∉ (joinOutputs a b).toList := by
  unfold joinOutputs
  split
  · simp [ha, hb]
  · simp [ha, hb]

/-- Every policy makes a plain point of plain points. -/
theorem keeps_plain (policy : Policy)
    : Keeps Plain policy := by
  intro p q _ hp hq
  have hkey := key_absorb policy p q
  rcases outputData_absorb policy p q with ho | ho | ⟨-, ho⟩
  · exact hp.of_key_eq hkey (ho ▸ hp.trimmed.outputData) (ho ▸ hp.outputData)
  · exact hp.of_key_eq hkey (ho ▸ hq.trimmed.outputData) (ho ▸ hq.outputData)
  · exact hp.of_key_eq hkey (ho ▸ trimmed_joinOutputs hp.trimmed.outputData hq.trimmed.outputData)
      (ho ▸ not_mem_joinOutputs hp.outputData hq.outputData)

/-- A policy that joins no outputs brings no separator into one. -/
theorem keeps_unmixed {policy : Policy} (h : policy ≠ .sum)
    : Keeps Unmixed policy := by
  intro p q hkey hp hq
  refine ⟨keeps_plain policy hkey hp.1 hq.1, ?_⟩
  rcases outputData_absorb policy p q with ho | ho | ⟨hsum, -⟩
  · exact ho ▸ hp.2
  · exact ho ▸ hq.2
  · exact absurd hsum h

theorem outputData_averaged (p : Point)
    : p.averaged.outputData = p.outputData := by
  unfold averaged
  split
  · rfl
  · rfl

theorem Plain.averaged {p : Point} (h : p.Plain)
    : p.averaged.Plain := by
  have ho := outputData_averaged p
  exact h.of_key_eq (key_averaged p) (ho ▸ h.trimmed.outputData) (ho ▸ h.outputData)

theorem Unmixed.averaged {p : Point} (h : p.Unmixed)
    : p.averaged.Unmixed :=
  ⟨h.1.averaged, (outputData_averaged p).symm ▸ h.2⟩

/-- A named point that stands in a single line has no separator in its output. -/
theorem unmixed_of_point? {line : String} (hline : '\n' ∉ line.toList) {p : Point}
    (h : (Recognition.ofNamedLine line).point? = some p)
    : p.Unmixed := by
  obtain ⟨hread, hvalid⟩ := Recognition.point?_ofNamedLine_iff.mp h
  obtain ⟨hlegible, hbenchmark⟩ := legible_of_accepted hline hread
  exact ⟨⟨hvalid, trimmedTexts_of_accepted hread, hlegible.benchmark, hbenchmark,
    hlegible.inputParams, hlegible.outputData⟩, hlegible.unseparated⟩

end Point

-----------------------------------------------------------------------------------------
-- The data set of a log
-----------------------------------------------------------------------------------------

namespace Log

/-- The points of a log are put in in the order of their lines and averaged in the end. -/
theorem value_ofLines (options : LogOptions) (lines : List String)
    : (ofLines options lines).value =
        let set :=
          (ofPoints ((scan options.labels none lines).value.1.getD options.defaultDescription)
            options.policy
            (lines.filterMap fun line => (Recognition.ofNamedLine line).point?)).value
        if options.average then set.averaged else set := by
  simp only [ofLines, Journal.value_bind, points_scan]
  rfl

/-- A property that merging keeps is one of all points put in if it is one of those of the
lines. -/
theorem sound_points {P : Point → Prop} {policy : Policy} {lines : List String}
    (keeps : Keeps P policy)
    (h : ∀ line ∈ lines, ∀ p, (Recognition.ofNamedLine line).point? = some p → P p)
    (description : String)
    : (ofPoints description policy
          (lines.filterMap fun line => (Recognition.ofNamedLine line).point?)).value.Sound P := by
  apply (sound_empty description).insertAll keeps
  intro p hp _
  obtain ⟨line, hline, hread⟩ := List.mem_filterMap.mp hp
  exact h line hline p hread

/-- A property that merging and averaging keep is one of all points of a log if it is one of the
points of its lines. -/
theorem sound_ofLines {P : Point → Prop} {options : LogOptions} {lines : List String}
    (keeps : Keeps P options.policy) (haverage : ∀ p, P p → P p.averaged)
    (h : ∀ line ∈ lines, ∀ p, (Recognition.ofNamedLine line).point? = some p → P p)
    : (ofLines options lines).value.Sound P := by
  rw [value_ofLines]
  dsimp only
  split
  · exact (sound_points keeps h _).averaged haverage
  · exact sound_points keeps h _

/-- Without averaging it need not keep the property. -/
theorem sound_ofLines_of_not_average {P : Point → Prop} {options : LogOptions}
    {lines : List String} (haverage : options.average = false) (keeps : Keeps P options.policy)
    (h : ∀ line ∈ lines, ∀ p, (Recognition.ofNamedLine line).point? = some p → P p)
    : (ofLines options lines).value.Sound P := by
  rw [value_ofLines]
  dsimp only
  rw [haverage]
  exact sound_points keeps h _

end Log

end BenchLog
