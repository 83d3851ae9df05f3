import BenchLog.Proofs.Log.Reported
import BenchLog.Proofs.Log.RoundTrip

/-! Logs whose data sets are written and read again.
The text of a data set reads back exactly if no output has a separator in it. Outputs of single
observations have none; two of them that are joined may.
-/

namespace BenchLog

open PointLine

/-- The text of the data set is read as a data set with the same keys and, under each of them, the
same time and the same output. -/
def DataSet.ReadsBack (options : LogOptions) (set : DataSet) : Prop :=
  (Log.ofText options set.text).value.keys = set.keys
  ∧ ∀ k,
      ((Log.ofText options set.text).value.get? k).map (fun p => (p.time, p.outputData)) =
        (set.get? k).map fun p => (p.time, p.outputData)

-----------------------------------------------------------------------------------------
-- The points of a text
-----------------------------------------------------------------------------------------

namespace DataSet

variable {P : Point → Prop} {set : DataSet}

/-- Whatever becomes of its description, the points of a text are those of the lines of points. -/
theorem value_ofText_text (hd : '\n' ∉ set.description.toList)
    (hp : ∀ p ∈ set.points.values, '\n' ∉ p.line.toList) {options : LogOptions}
    (haverage : options.average = false)
    : ∃ description,
        (Log.ofText options set.text).value =
          (ofPoints description options.policy
            (set.points.values.filterMap fun p =>
              (Recognition.ofNamedLine p.line).point?)).value := by
  obtain ⟨header, hlines, hheader⟩ := lines_text hd hp
  have hsign : header.toList.head? = some '#' := by
    rcases hheader with rfl | hreturn
    · exact set.head?_headerLine
    · have hhead := set.head?_headerLine
      rw [hreturn] at hhead
      cases hcs : header.toList with
      | nil => simp [hcs] at hhead
      | cons c cs => simpa [hcs] using hhead
  refine ⟨(Log.scan options.labels none (Text.lines set.text)).value.1.getD
    options.defaultDescription, ?_⟩
  rw [Log.ofText, Log.value_ofLines, hlines, List.filterMap_cons,
    Recognition.point?_of_comment hsign, List.filterMap_map]
  simp only [haverage, Bool.false_eq_true, if_false, Function.comp_def]

theorem Sound.eq_of_key_eq (h : set.Sound P) {p q : Point} (hp : p ∈ set.points.values)
    (hq : q ∈ set.points.values) (hkey : p.key = q.key)
    : p = q := by
  obtain ⟨⟨k, p⟩, hk, rfl⟩ := List.mem_map.mp hp
  obtain ⟨⟨l, q⟩, hl, rfl⟩ := List.mem_map.mp hq
  obtain rfl : k = l := by rw [← h.keyed hk, ← h.keyed hl, hkey]
  exact Option.some.inj ((h.ascending.get?_of_mem hk).symm.trans (h.ascending.get?_of_mem hl))

theorem Sound.key_mem_keys (h : set.Sound P) {p : Point} (hp : p ∈ set.points.values)
    : p.key ∈ set.keys := by
  obtain ⟨⟨k, q⟩, hmem, rfl⟩ := List.mem_map.mp hp
  rw [h.keyed hmem]
  exact List.mem_map_of_mem hmem

end DataSet

theorem Point.Unmixed.point?_line {p : Point} (h : p.Unmixed)
    : (Recognition.ofNamedLine p.line).point? = some p.asSingle := by
  rw [(h.1.legible h.2).ofNamedLine_line h.1.trimmed h.1.named]
  rfl

/-- A plain point with a separator in its output is read as one with a longer input. -/
theorem Point.Plain.point?_line_of_hasSeparator {p q : Point} (h : p.Plain)
    (hs : HasSeparator p.outputData.toList)
    (hread : (Recognition.ofNamedLine p.line).point? = some q)
    : p.inputParams.toList.length < q.inputParams.toList.length := by
  obtain ⟨hread, -⟩ := Recognition.point?_ofNamedLine_iff.mp hread
  obtain ⟨r, hr, -, -, hlonger⟩ :=
    exists_longer_of_hasSeparator h.trimmed h.comma h.inputParams h.outputData hs
  obtain rfl := Recognition.accepted.inj (hread.symm.trans hr)
  exact hlonger

-----------------------------------------------------------------------------------------
-- Data sets that read back
-----------------------------------------------------------------------------------------

namespace DataSet

variable {set : DataSet} {options : LogOptions}

/-- Without separators every line gives its point back. -/
theorem Sound.readsBack (h : set.Sound Point.Unmixed) (hd : '\n' ∉ set.description.toList)
    (haverage : options.average = false)
    : set.ReadsBack options := by
  have hlines : ∀ p ∈ set.points.values, '\n' ∉ p.line.toList :=
    fun p hp => (h.of_mem_values hp).1.not_mem_line
  have hpoints
      : set.points.values.filterMap (fun p => (Recognition.ofNamedLine p.line).point?) =
          set.points.values.map Point.asSingle := by
    rw [← List.filterMap_eq_map]
    exact List.filterMap_congr fun p hp => (h.of_mem_values hp).point?_line
  obtain ⟨description, hvalue⟩ := value_ofText_text hd hlines haverage
  rw [hpoints, (h.ofPoints_asSingle (fun p hp => hp.1.named) description options.policy).1] at hvalue
  rw [ReadsBack, hvalue]
  refine ⟨KeyMap.keys_mapValues _ _, fun k => ?_⟩
  rw [get?, KeyMap.get?_mapValues, Option.map_map]
  rfl

/-- With a separator in the output of a point its key is lost: the line of that point gives another
key, and so does every other line, by induction on the length of the input, since a line with a
separator in its output gives a key with a longer input than its own. -/
theorem Sound.not_hasSeparator (h : set.Sound Point.Plain) (hd : '\n' ∉ set.description.toList)
    (haverage : options.average = false)
    (hkeys : (Log.ofText options set.text).value.keys = set.keys)
    : ∀ n, ∀ p ∈ set.points.values, p.inputParams.toList.length = n →
        ¬ HasSeparator p.outputData.toList := by
  have hlines : ∀ p ∈ set.points.values, '\n' ∉ p.line.toList :=
    fun p hp => (h.of_mem_values hp).not_mem_line
  obtain ⟨description, hvalue⟩ := value_ofText_text hd hlines haverage
  intro n
  induction n using Nat.strong_induction_on with
  | _ n ih =>
      intro p hp hn hs
      have hkey := h.key_mem_keys hp
      rw [← hkeys, hvalue, ofPoints, mem_keys_insertAll] at hkey
      obtain hempty | ⟨r, hr, -, hkey⟩ := hkey
      · exact absurd hempty List.not_mem_nil
      obtain ⟨q, hq, hread⟩ := List.mem_filterMap.mp hr
      have hplain := h.of_mem_values hq
      by_cases hqs : HasSeparator q.outputData.toList
      · have hlonger := hplain.point?_line_of_hasSeparator hqs hread
        simp only [Point.key, Key.mk.injEq] at hkey
        rw [hkey.2.1, hn] at hlonger
        exact ih _ hlonger q hq rfl hqs
      · have hunmixed : q.Unmixed := ⟨hplain, hqs⟩
        rw [hunmixed.point?_line, Option.some.injEq] at hread
        rw [← hread, Point.key_asSingle] at hkey
        exact hqs (h.eq_of_key_eq hp hq hkey.symm ▸ hs)

end DataSet

/-- The data set of a log reads back from its text exactly if no output in it has a separator, and
it does under every policy but the summing one. -/
theorem Log.readsBack_iff {options again : LogOptions}
    (hdefault : '\n' ∉ options.defaultDescription.toList) (haverage : again.average = false)
    (text : String)
    : ((ofText options text).value.ReadsBack again ↔
          ∀ p ∈ (ofText options text).value.points.values, ¬ HasSeparator p.outputData.toList)
      ∧ (options.policy ≠ .sum → (ofText options text).value.ReadsBack again) := by
  have hfeed := Text.feed_not_mem_lines text
  have hread
      : ∀ line ∈ Text.lines text, ∀ p,
          (Recognition.ofNamedLine line).point? = some p → p.Unmixed :=
    fun line hline p => Point.unmixed_of_point? (hfeed line hline)
  have hdescription : '\n' ∉ (ofText options text).value.description.toList :=
    not_mem_description hdefault hfeed
  have hplain : (ofText options text).value.Sound Point.Plain :=
    sound_ofLines (Point.keeps_plain options.policy) (fun _ hp => hp.averaged)
      fun line hline p hp => (hread line hline p hp).1
  refine ⟨⟨fun hback p hp => ?_, fun hnone => ?_⟩, fun hpolicy => ?_⟩
  · exact hplain.not_hasSeparator hdescription haverage hback.1 _ p hp rfl
  · have hunmixed : (ofText options text).value.Sound Point.Unmixed := by
      refine ⟨hplain.ascending, hplain.keyed, fun hmem => ⟨hplain.all hmem, ?_⟩⟩
      exact hnone _ (List.mem_map_of_mem hmem)
    exact hunmixed.readsBack hdescription haverage
  · have hunmixed : (ofText options text).value.Sound Point.Unmixed :=
      sound_ofLines (Point.keeps_unmixed hpolicy) (fun _ hp => hp.averaged) hread
    exact hunmixed.readsBack hdescription haverage

/-- Outputs that are joined into one without a separator read back. -/
theorem Log.readsBack_joined
    : (ofText ⟨.sum, "UNKNOWN", false, defaultLabels⟩
          ("CILKPUB_DATA_POINT, 1.5, 2, fib, [in], [x]]\n"
            ++ "CILKPUB_DATA_POINT, 2.5, 2, fib, [in], [y]\n")).value.ReadsBack
        ⟨.sum, "UNKNOWN", false, defaultLabels⟩ :=
  (readsBack_iff (by decide) rfl _).1.mpr (by decide +kernel)

/-- Two outputs that are joined with a separator between them do not: what is written as the output
of one key is read as the input of another. -/
theorem Log.not_readsBack_joined
    : ¬ (ofText ⟨.sum, "UNKNOWN", false, defaultLabels⟩
          ("CILKPUB_DATA_POINT, 1.5, 2, fib, [in], [x]]\n"
            ++ "CILKPUB_DATA_POINT, 2.5, 2, fib, [in], [[y]\n")).value.ReadsBack
        ⟨.sum, "UNKNOWN", false, defaultLabels⟩ := by
  intro hback
  exact absurd hback.1 (by decide +kernel)

end BenchLog
