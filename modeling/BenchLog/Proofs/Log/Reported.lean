import BenchLog.Proofs.Log.Collected

/-! What a log says of its run, and what is reported of it.
The first line that describes the run counts. What is reported of a line depends on the lines
before it through that description alone, and of the points only repeated keys are reported.
-/

namespace BenchLog

open DataSet

-----------------------------------------------------------------------------------------
-- The kinds of reports
-----------------------------------------------------------------------------------------

namespace Diagnostic

/-- The report is about a line that has the shape of a point and stands for none. -/
def isOfLine : Diagnostic → Bool
  | .tagMismatch .. | .malformedField .. | .invalidPoint .. => true
  | _ => false

def isDuplicate : Diagnostic → Bool
  | .duplicatePoint .. => true
  | _ => false

def isConflict : Diagnostic → Bool
  | .descriptionConflict .. => true
  | _ => false

theorem not_isOfLine {d : Diagnostic} (h : d.isConflict = true ∨ d.isDuplicate = true)
    : ¬ d.isOfLine = true := by
  cases d <;> simp_all [isConflict, isDuplicate, isOfLine]

theorem not_isDuplicate {d : Diagnostic} (h : d.isOfLine = true ∨ d.isConflict = true)
    : ¬ d.isDuplicate = true := by
  cases d <;> simp_all [isConflict, isDuplicate, isOfLine]

end Diagnostic

namespace Recognition

theorem isOfLine_of_anomaly?_ofFields {line : String} {fields : PointLine} {d : Diagnostic}
    (h : (ofFields line fields).anomaly? = some d)
    : d.isOfLine = true := by
  unfold ofFields at h
  dsimp only at h
  split at h
  · cases h
    rfl
  · split at h
    · cases h
      rfl
    · cases h
      rfl
    · cases h

/-- A line is rejected for its tag, for a field that is no number, or for its benchmark. -/
theorem isOfLine_of_anomaly? {line : String} {d : Diagnostic}
    (h : (ofNamedLine line).anomaly? = some d)
    : d.isOfLine = true := by
  have hline : ∀ {d}, (ofLine line).anomaly? = some d → d.isOfLine = true := by
    intro d hd
    unfold ofLine at hd
    split at hd
    · cases hd
    · exact isOfLine_of_anomaly?_ofFields hd
  unfold ofNamedLine at h
  generalize ofLine line = read at h hline
  unfold requireBenchmark at h
  split at h
  · split at h
    · cases h
    · cases h
      rfl
  · exact hline h

end Recognition

-----------------------------------------------------------------------------------------
-- The descriptions of a run
-----------------------------------------------------------------------------------------

namespace Log

/-- What a line that is no point says of the run. -/
def describes? (labels : List String) (line : String) : Option String :=
  match (Recognition.ofNamedLine line).point? with
  | some _ => none
  | none => (describedBy labels line).value.filter (· ≠ "")

/-- What is reported when a description may have been found before and one may be found now. -/
def conflict? : Option String → Option String → Option Diagnostic
  | some current, some found =>
      if current ≠ found then some (.descriptionConflict current found) else none
  | _, _ => none

theorem diagnostics_describedBy (labels : List String) (line : String)
    : (describedBy labels line).diagnostics = [] := by
  unfold describedBy
  split <;> rfl

theorem value_settle (current : Option String) (found : String)
    : (settle current found).value = some (current.getD found) := by
  cases current with
  | none => rfl
  | some description =>
      unfold settle
      dsimp only
      split
      · rfl
      · rfl

theorem diagnostics_settle (current : Option String) (found : String)
    : (settle current found).diagnostics = (conflict? current (some found)).toList := by
  cases current with
  | none => rfl
  | some description =>
      unfold settle conflict?
      dsimp only
      split <;> rfl

/-- After one line a scan goes on with the first description so far; of the line itself it reports
what is wrong with its shape and then a conflict of descriptions. -/
theorem scan_cons (labels : List String) (description : Option String) (line : String)
    (lines : List String)
    : (scan labels description (line :: lines)).value.1 =
          (scan labels (description.or (describes? labels line)) lines).value.1
        ∧ (scan labels description (line :: lines)).diagnostics =
          (Recognition.ofNamedLine line).anomaly?.toList
            ++ ((conflict? description (describes? labels line)).toList
              ++ (scan labels (description.or (describes? labels line)) lines).diagnostics) := by
  rw [scan, describes?, Journal.value_bind, Journal.diagnostics_bind,
    Journal.diagnostics_note?]
  cases hpoint : (Recognition.ofNamedLine line).point? with
  | some p => cases description <;> simp [conflict?]
  | none =>
      dsimp only
      rw [Journal.value_bind, Journal.diagnostics_bind, diagnostics_describedBy, List.nil_append]
      cases hfound : (describedBy labels line).value with
      | none => cases description <;> simp [conflict?]
      | some found =>
          -- an empty value is no description, and nothing is settled by it
          by_cases hempty : found = ""
          · rw [Option.filter_some_neg (by simp [hempty]), hempty]
            cases description <;> simp [conflict?]
          · rw [Option.filter_some_pos (by simp [hempty])]
            cases description <;> simp [hempty, value_settle, diagnostics_settle]

/-- The description of a scan is the one it starts with or the first that a line gives, by
induction along the lines. -/
theorem description_scan (labels : List String) (description : Option String)
    (lines : List String)
    : (scan labels description lines).value.1 =
        description.or (lines.findSome? (describes? labels)) := by
  induction lines generalizing description with
  | nil => simp [scan]
  | cons line lines ih =>
      rw [(scan_cons labels description line lines).1, ih, Option.or_assoc, List.findSome?_cons]
      cases describes? labels line <;> rfl

theorem description_ofLines (options : LogOptions) (lines : List String)
    : (ofLines options lines).value.description =
        (lines.findSome? (describes? options.labels)).getD options.defaultDescription := by
  have hfound := description_scan options.labels none lines
  rw [Option.none_or] at hfound
  rw [value_ofLines, hfound]
  dsimp only
  split
  · exact description_insertAll
  · exact description_insertAll

/-- The value that a line without line feed gives to a label has none either. -/
theorem not_mem_of_ofLine_eq_value {labels : List String} {line text : String}
    (hline : '\n' ∉ line.toList) (h : LabelLine.ofLine labels line = .value text)
    : '\n' ∉ text.toList := by
  have huncomment : '\n' ∉ LabelLine.uncomment line.toList := by
    intro hmem
    obtain ⟨c, hc, he⟩ := List.mem_map.mp hmem
    split at he
    · cases he
    · exact hline (he ▸ hc)
  unfold LabelLine.ofLine at h
  dsimp only at h
  split at h
  · next c rest hrest =>
      split at h
      · cases h
      · split at h
        · cases h
          have htail : rest <:+ LabelLine.uncomment line.toList :=
            (List.suffix_cons c rest).trans (hrest ▸ List.dropWhile_suffix _)
          rw [String.toList_ofList]
          exact fun hmem => huncomment (htail.subset ((Text.trimChars_isInfix rest).subset hmem))
        · cases h
  · cases h

theorem not_mem_of_describedBy {labels : List String} {line found : String}
    (hline : '\n' ∉ line.toList) (h : (describedBy labels line).value = some found)
    : '\n' ∉ found.toList := by
  unfold describedBy at h
  split at h
  · cases h
  · cases h
  · next text hvalue =>
      cases h
      exact not_mem_of_ofLine_eq_value hline hvalue

/-- The description of a log stands in a single line if the one it has otherwise does. -/
theorem not_mem_description {options : LogOptions} {lines : List String}
    (hdefault : '\n' ∉ options.defaultDescription.toList)
    (h : ∀ line ∈ lines, '\n' ∉ line.toList)
    : '\n' ∉ (ofLines options lines).value.description.toList := by
  rw [description_ofLines]
  cases hfound : lines.findSome? (describes? options.labels) with
  | none => exact hdefault
  | some description =>
      obtain ⟨line, hmem, hline⟩ := List.exists_of_findSome?_eq_some hfound
      unfold describes? at hline
      split at hline
      · cases hline
      · exact not_mem_of_describedBy (h line hmem) (Option.filter_eq_some_iff.mp hline).1

-----------------------------------------------------------------------------------------
-- The reports of a scan
-----------------------------------------------------------------------------------------

theorem isConflict_of_mem_conflict? {current found : Option String} {d : Diagnostic}
    (h : d ∈ conflict? current found)
    : d.isConflict = true := by
  unfold conflict? at h
  split at h
  · split at h
    · cases Option.mem_some_iff.mp h
      rfl
    · cases h
  · cases h

/-- A scan reports on single lines and on descriptions, by induction along the lines. -/
theorem isOfLine_or_isConflict_of_mem_scan {labels : List String} {description : Option String}
    {lines : List String} {d : Diagnostic} (h : d ∈ (scan labels description lines).diagnostics)
    : d.isOfLine = true ∨ d.isConflict = true := by
  induction lines generalizing description with
  | nil => cases h
  | cons line lines ih =>
      rw [(scan_cons labels description line lines).2, List.mem_append, List.mem_append,
        Option.mem_toList, Option.mem_toList] at h
      rcases h with hline | hconflict | hrest
      · exact Or.inl (Recognition.isOfLine_of_anomaly? hline)
      · exact Or.inr (isConflict_of_mem_conflict? hconflict)
      · exact ih hrest

/-- The reports on single lines are those of the lines one by one, whatever the descriptions. -/
theorem filter_isOfLine_scan (labels : List String) (description : Option String)
    (lines : List String)
    : (scan labels description lines).diagnostics.filter Diagnostic.isOfLine =
        lines.filterMap fun line => (Recognition.ofNamedLine line).anomaly? := by
  induction lines generalizing description with
  | nil => rfl
  | cons line lines ih =>
      have hconflict
          : (conflict? description (describes? labels line)).toList.filter Diagnostic.isOfLine =
              [] :=
        List.filter_eq_nil_iff.mpr fun d hd =>
          Diagnostic.not_isOfLine (Or.inl (isConflict_of_mem_conflict? (Option.mem_toList.mp hd)))
      rw [(scan_cons labels description line lines).2, List.filter_append, List.filter_append, ih,
        hconflict, List.nil_append, List.filterMap_cons]
      cases hline : (Recognition.ofNamedLine line).anomaly? with
      | none => rfl
      | some d => simp [Recognition.isOfLine_of_anomaly? hline]

end Log

-----------------------------------------------------------------------------------------
-- The reports on points
-----------------------------------------------------------------------------------------

namespace DataSet

variable {P : Point → Prop} {policy : Policy} {set other : DataSet}

/-- In a sound data set a point under its own key is reported only as a repeated one. -/
theorem Sound.isDuplicate_of_mem_mergeAt (h : set.Sound P) {k : Key} {p : Point}
    (hkey : p.key = k) {d : Diagnostic} (hd : d ∈ (set.mergeAt policy k p).diagnostics)
    : d.isDuplicate = true := by
  unfold DataSet.mergeAt at hd
  split at hd
  · cases hd
  · next existing hget =>
      have hsame : existing.key = p.key := (h.keyed (KeyMap.mem_of_get? hget)).trans hkey.symm
      rw [Journal.diagnostics_bind, Journal.diagnostics_pure, List.append_nil,
        Point.diagnostics_merge hsame] at hd
      split at hd
      · cases List.mem_singleton.mp hd
        rfl
      · cases hd

/-- Points that name their benchmark are reported only as repeated ones, by induction along their
list. -/
theorem Sound.isDuplicate_of_mem_insertAll (h : set.Sound fun _ => True) {points : List Point}
    (hvalid : ∀ p ∈ points, p.isValid = true) {d : Diagnostic}
    (hd : d ∈ (set.insertAll policy points).diagnostics)
    : d.isDuplicate = true := by
  induction points generalizing set with
  | nil => cases hd
  | cons p points ih =>
      obtain ⟨hp, hrest⟩ := List.forall_mem_cons.mp hvalid
      rw [DataSet.insertAll, insert_of_isValid hp, Journal.diagnostics_bind, List.mem_append] at hd
      rcases hd with hd | hd
      · exact h.isDuplicate_of_mem_mergeAt rfl hd
      · exact ih (h.mergeAt (fun _ _ _ => trivial) rfl trivial) hrest hd

end DataSet

namespace Log

/-- A log reports on its lines and descriptions first and on its repeated keys then. -/
theorem diagnostics_ofLines (options : LogOptions) (lines : List String)
    : (ofLines options lines).diagnostics =
        (scan options.labels none lines).diagnostics
          ++ (ofPoints (ofLines options lines).value.description options.policy
              (lines.filterMap fun line => (Recognition.ofNamedLine line).point?)).diagnostics := by
  have hfound := description_scan options.labels none lines
  rw [Option.none_or] at hfound
  rw [description_ofLines, ← hfound, ← points_scan options.labels none lines, ofLines,
    Journal.diagnostics_bind, Journal.diagnostics_bind, Journal.diagnostics_bind]
  simp [Journal.trace]

theorem isDuplicate_of_mem_ofPoints {description : String} {policy : Policy}
    {lines : List String} {d : Diagnostic}
    (hd : d ∈ (ofPoints description policy
      (lines.filterMap fun line => (Recognition.ofNamedLine line).point?)).diagnostics)
    : d.isDuplicate = true := by
  refine (sound_empty description).isDuplicate_of_mem_insertAll (fun p hp => ?_) hd
  obtain ⟨line, -, hread⟩ := List.mem_filterMap.mp hp
  exact (Recognition.point?_ofNamedLine_iff.mp hread).2

/-- Nothing else is reported of a log. -/
theorem kind_of_mem_ofLines {options : LogOptions} {lines : List String} {d : Diagnostic}
    (h : d ∈ (ofLines options lines).diagnostics)
    : d.isOfLine = true ∨ d.isConflict = true ∨ d.isDuplicate = true := by
  rw [diagnostics_ofLines, List.mem_append] at h
  rcases h with hscan | hpoints
  · exact (isOfLine_or_isConflict_of_mem_scan hscan).imp_right Or.inl
  · exact Or.inr (Or.inr (isDuplicate_of_mem_ofPoints hpoints))

end Log

end BenchLog
