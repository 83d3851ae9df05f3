import BenchLog.Proofs.DataSet.Built
import BenchLog.Proofs.Log.Scan
import BenchLog.Proofs.Text.Lines

/-! Data sets that are written as text and read again.
The lines of the text are the header and one line for each point; read back they give the same
points in the same order, each as one observation, so that no two of them meet.
-/

namespace BenchLog

-----------------------------------------------------------------------------------------
-- The lines of a text
-----------------------------------------------------------------------------------------

/-- The text of a data set splits into the lines it is made of, the header being the one that may
lose a return. -/
theorem DataSet.lines_text {set : DataSet} (hd : '\n' ∉ set.description.toList)
    (hp : ∀ p ∈ set.points.values, '\n' ∉ p.line.toList)
    : ∃ header,
        Text.lines set.text = header :: set.points.values.map Point.line
        ∧ (header = set.headerLine ∨ set.headerLine.toList = header.toList ++ ['\r']) := by
  apply Text.lines_join
  · rw [headerLine, String.toList_append, List.mem_append, not_or]
    exact ⟨by decide, hd⟩
  · intro line hline
    obtain ⟨p, hmem, rfl⟩ := List.mem_map.mp hline
    refine ⟨hp p hmem, ?_⟩
    rw [Point.getLast?_line]
    decide

/-- A description without blanks at its end keeps the header as it is. -/
theorem DataSet.Described.lines_text_eq {set : DataSet} (hd : set.Described)
    (hp : ∀ p ∈ set.points.values, '\n' ∉ p.line.toList)
    : Text.lines set.text = set.textLines := by
  obtain ⟨header, hlines, rfl | hreturn⟩ := lines_text hd.feed hp
  · exact hlines
  · have hne : set.description.toList ≠ [] := by simpa using hd.nonempty
    obtain ⟨c, hc⟩ := Option.isSome_iff_exists.mp (List.getLast?_isSome.mpr hne)
    have hlast := congrArg List.getLast? hreturn
    rw [headerLine, String.toList_append, List.getLast?_append, hc, Option.some_or,
      List.getLast?_concat, ← hc] at hlast
    exact absurd (hd.trimmed.2 _ hlast) (by decide)

-----------------------------------------------------------------------------------------
-- The points of a sound data set
-----------------------------------------------------------------------------------------

theorem DataSet.Sound.mapValues_eq {P : Point → Prop} {set : DataSet} (h : set.Sound P)
    {f : Point → Point} (hkey : ∀ p, (f p).key = p.key)
    : set.points.mapValues f = (set.points.values.map f).map fun p => (p.key, p) := by
  rw [KeyMap.mapValues, KeyMap.values, List.map_map, List.map_map]
  apply List.map_congr_left
  rintro ⟨k, p⟩ hmem
  simp [hkey, h.keyed hmem]

/-- The lines of the points, read and put in one after the other, give the points back. -/
theorem DataSet.Sound.ofPoints_asSingle {P : Point → Prop} {set : DataSet} (h : set.Sound P)
    (hvalid : ∀ p, P p → p.isValid = true) (description : String) (policy : Policy)
    : (ofPoints description policy (set.points.values.map Point.asSingle)).value =
          ⟨description, set.points.mapValues Point.asSingle⟩
        ∧ (ofPoints description policy (set.points.values.map Point.asSingle)).diagnostics =
          [] := by
  have hnamed : ∀ p ∈ set.points.values.map Point.asSingle, p.isValid = true := by
    intro p hp
    obtain ⟨q, hq, rfl⟩ := List.mem_map.mp hp
    exact hvalid q (h.of_mem_values hq)
  have hascending := h.ascending.mapValues Point.asSingle
  rw [h.mapValues_eq Point.key_asSingle] at hascending ⊢
  exact @insertAll_of_ascending policy (empty description) _ hnamed hascending

/-- Of a text in which everything comes back, all but the extremes and the counts is read. -/
theorem DataSet.Sound.ofText_text {set : DataSet} (h : set.Sound NamedBuilt) (hd : set.Described)
    (hp : ∀ p ∈ set.points.values, p.Legible ∧ '\n' ∉ p.benchmark.toList)
    {options : LogOptions}
    (hlabel : ∃ label ∈ options.labels, Text.sameLetters "branch" label = true)
    (haverage : options.average = false)
    : (Log.ofText options set.text).value =
          { set with points := set.points.mapValues Point.asSingle }
        ∧ (Log.ofText options set.text).diagnostics =
          (Recognition.ofNamedLine set.headerLine).anomaly?.toList := by
  have hpoints
      : ∀ p ∈ set.points.values, p.Legible ∧ p.TrimmedTexts ∧ p.isValid = true := by
    intro p hmem
    obtain ⟨hvalid, hbuilt⟩ := h.of_mem_values hmem
    exact ⟨(hp p hmem).1, hbuilt.trimmedTexts, hvalid⟩
  obtain ⟨hvalue, hdiagnostics⟩ :=
    Log.scan_headerLine hlabel hd (set.points.values.map Point.line)
  obtain ⟨hvalues, hnone⟩ := Log.scan_map_line hpoints options.labels (some set.description)
  obtain ⟨hset, hreports⟩ := h.ofPoints_asSingle (fun p hp => hp.1) set.description options.policy
  rw [hvalues] at hvalue
  rw [hnone, List.append_nil] at hdiagnostics
  have hlines : ∀ p ∈ set.points.values, '\n' ∉ p.line.toList := by
    intro p hmem
    obtain ⟨hlegible, hbenchmark⟩ := hp p hmem
    exact Point.not_mem_line hbenchmark hlegible.inputParams hlegible.outputData
  rw [Log.ofText, hd.lines_text_eq hlines]
  simp only [Log.ofLines, textLines, Journal.value_bind, Journal.diagnostics_bind, hvalue,
    hdiagnostics, Option.getD_some, hset, hreports, haverage]
  simp [Journal.trace]

-----------------------------------------------------------------------------------------
-- The round trip
-----------------------------------------------------------------------------------------

/-- A data set whose description and points can be carried by lines comes back from its text with
its description, its keys and its points, each as one observation with the same time bit for bit.
Only a header that has the shape of a point is reported, and the text of what was read is the text
that was read. -/
theorem DataSet.Built.ofText_text_eq {set : DataSet} (h : set.Built) (hd : set.Described)
    (hp : ∀ p ∈ set.points.values, p.Legible ∧ '\n' ∉ p.benchmark.toList)
    {options : LogOptions}
    (hlabel : ∃ label ∈ options.labels, Text.sameLetters "branch" label = true)
    (haverage : options.average = false)
    : (Log.ofText options set.text).value.description = set.description
      ∧ (Log.ofText options set.text).value.keys = set.keys
      ∧ (∀ k,
          (Log.ofText options set.text).value.get? k =
            (set.get? k).map fun p => { p with count := 1, minTime := p.time, maxTime := p.time })
      ∧ ((∃ f, PointLine.Splits set.headerLine.toList f) →
          (Log.ofText options set.text).diagnostics = [.tagMismatch set.headerLine])
      ∧ ((¬ ∃ f, PointLine.Splits set.headerLine.toList f) →
          (Log.ofText options set.text).diagnostics = [])
      ∧ (Log.ofText options set.text).value.text = set.text := by
  obtain ⟨hvalue, hdiagnostics⟩ := h.sound.ofText_text hd hp hlabel haverage
  obtain ⟨hsplit, hwhole⟩ := Recognition.ofNamedLine_of_comment set.head?_headerLine
  rw [hvalue, hdiagnostics]
  refine ⟨rfl, ?_, ?_, ?_, ?_, ?_⟩
  · exact KeyMap.keys_mapValues _ _
  · exact KeyMap.get?_mapValues _ _
  · intro hs
    rw [hsplit hs]
    rfl
  · intro hs
    rw [hwhole hs]
    rfl
  · have hlines
        : (set.points.mapValues Point.asSingle).values.map Point.line =
            set.points.values.map Point.line := by
      simp [KeyMap.mapValues, KeyMap.values, Point.asSingle, Point.line]
    rw [text, text, textLines, textLines, hlines]
    rfl

/-- A data set whose description looks like the fields of a point. -/
def DataSet.shaped : DataSet :=
  ⟨"a, 1, 1, b, [x], [y]",
    [(⟨"fib", "1], [2", 4⟩, .ofCount "fib" 4 0.5 "1], [2" "ok" 3)]⟩

/-- A header with the shape of a point is reported, and everything comes back. -/
theorem DataSet.ofText_text_shaped
    : shaped.Built
      ∧ (Log.ofText ⟨.max, "", false, ["Branch"]⟩ shaped.text).diagnostics =
          [.tagMismatch shaped.headerLine]
      ∧ (Log.ofText ⟨.max, "", false, ["Branch"]⟩ shaped.text).value.text = shaped.text := by
  have hbuilt : shaped.Built := by
    have hinsert
        : ((empty shaped.description).insert .sum (.ofCount "fib" 4 0.5 "1], [2" "ok" 3)).value =
            shaped := by
      rw [insert_of_isValid (by decide), mergeAt_of_get?_eq_none rfl]
      rfl
    rw [← hinsert]
    exact .insert .sum (.ofCount ..) (.empty _)
  have htrim : Text.trim shaped.description = shaped.description := by decide
  have hdescribed : shaped.Described :=
    ⟨by decide, htrim ▸ Point.trimmed_trim _, by decide, by decide, by decide⟩
  have hpoints : ∀ p ∈ shaped.points.values, p.Legible ∧ '\n' ∉ p.benchmark.toList := by
    intro p hp
    obtain rfl := List.mem_singleton.mp hp
    exact ⟨⟨by decide, by decide, by decide, by decide⟩, by decide⟩
  obtain ⟨f, hf⟩ :=
    Option.isSome_iff_exists.mp (by decide : (PointLine.ofChars? shaped.headerLine.toList).isSome)
  obtain ⟨-, -, -, hreported, -, htext⟩ :=
    @Built.ofText_text_eq shaped hbuilt hdescribed hpoints ⟨.max, "", false, ["Branch"]⟩
      ⟨"Branch", by decide, by decide⟩ rfl
  exact ⟨hbuilt, hreported ⟨f, PointLine.splits_of_ofChars? hf⟩, htext⟩

end BenchLog
