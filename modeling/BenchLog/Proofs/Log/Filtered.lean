import BenchLog.Log.PatternGroup
import BenchLog.Proofs.Log.Reported

/-! Logs of which only the lines that a group of patterns keeps are read.
A line that is read as a point contains the tag, so that a group with a pattern that is part of the
tag keeps it. The other lines give no points, and those that were dropped are not reported.
-/

namespace BenchLog

open DataSet

-----------------------------------------------------------------------------------------
-- Lines that are kept
-----------------------------------------------------------------------------------------

/-- The tag stands in every line that is read as a point, within the first of its fields. -/
theorem Recognition.pointTag_isInfix_of_accepted {line : String} {p : Point}
    (h : ofLine line = .accepted p)
    : pointTag.toList <:+: line.toList := by
  obtain ⟨f, ⟨hsplits, -⟩, htag, -⟩ := exists_decides_of_accepted h
  obtain ⟨-, -, -, w₁, w₂, w₃, w₄, rest, -, -, hline⟩ := hsplits
  rw [← htag, hline]
  exact (Text.trimChars_isInfix f.tag).trans (List.prefix_append _ _).isInfix

namespace PatternGroup

/-- The group has no pattern, or one that is part of the tag of points. -/
def MeetsTag (group : PatternGroup) : Prop :=
  group.patterns = [] ∨ ∃ pattern ∈ group.patterns, pattern.toList <:+: pointTag.toList

theorem MeetsTag.keeps_of_point? {group : PatternGroup} (h : group.MeetsTag) {line : String}
    {p : Point} (hread : (Recognition.ofNamedLine line).point? = some p)
    : group.keeps line = true := by
  obtain ⟨haccepted, -⟩ := Recognition.point?_ofNamedLine_iff.mp hread
  rcases h with hempty | ⟨pattern, hmem, hpart⟩
  · simp [keeps, hempty]
  · have hoccurs : occurs pattern.toList line.toList = true :=
      (occurs_iff _ _).mpr (hpart.trans (Recognition.pointTag_isInfix_of_accepted haccepted))
    rw [keeps, Bool.or_eq_true]
    exact Or.inr (List.any_eq_true.mpr ⟨pattern, hmem, hoccurs⟩)

/-- The lines that are dropped give no points. -/
theorem MeetsTag.filterMap_point?_lines {group : PatternGroup} (h : group.MeetsTag)
    (text : String)
    : (group.lines text).filterMap (fun line => (Recognition.ofNamedLine line).point?) =
        (Text.lines text).filterMap fun line => (Recognition.ofNamedLine line).point? := by
  rw [lines, List.filterMap_filter]
  apply List.filterMap_congr
  intro line _
  cases hread : (Recognition.ofNamedLine line).point? with
  | none => exact ite_self none
  | some p => rw [if_pos (h.keeps_of_point? hread)]

end PatternGroup

-----------------------------------------------------------------------------------------
-- Points put in whatever the description
-----------------------------------------------------------------------------------------

namespace DataSet

variable {set other : DataSet} (policy : Policy)

theorem insert_of_points_eq (h : set.points = other.points) (p : Point)
    : (set.insert policy p).value.points = (other.insert policy p).value.points
      ∧ (set.insert policy p).diagnostics = (other.insert policy p).diagnostics := by
  unfold DataSet.insert mergeAt
  rw [h]
  split
  · split
    · exact ⟨rfl, rfl⟩
    · exact ⟨rfl, rfl⟩
  · exact ⟨h, rfl⟩

/-- What becomes of points put in and what is reported of them depends on the points that are
there, by induction along the list of the new ones. -/
theorem insertAll_of_points_eq (h : set.points = other.points) (points : List Point)
    : (set.insertAll policy points).value.points = (other.insertAll policy points).value.points
      ∧ (set.insertAll policy points).diagnostics = (other.insertAll policy points).diagnostics := by
  induction points generalizing set other with
  | nil => exact ⟨h, rfl⟩
  | cons p points ih =>
      obtain ⟨hpoints, hreports⟩ := insert_of_points_eq policy h p
      obtain ⟨hrest, hmore⟩ := ih hpoints
      simp only [insertAll, Journal.value_bind, Journal.diagnostics_bind]
      exact ⟨hrest, by rw [hreports, hmore]⟩

theorem ofPoints_congr_description (description description' : String) (points : List Point)
    : (ofPoints description policy points).value.points =
          (ofPoints description' policy points).value.points
      ∧ (ofPoints description policy points).diagnostics =
          (ofPoints description' policy points).diagnostics := by
  have hpoints : (empty description).points = (empty description').points := rfl
  exact insertAll_of_points_eq policy hpoints points

end DataSet

-----------------------------------------------------------------------------------------
-- Logs with the same points
-----------------------------------------------------------------------------------------

namespace Log

variable {lines others : List String}

/-- The points of a log depend on the points of its lines alone. -/
theorem points_ofLines_congr (options : LogOptions)
    (h : (lines.filterMap fun line => (Recognition.ofNamedLine line).point?) =
      others.filterMap fun line => (Recognition.ofNamedLine line).point?)
    : (ofLines options lines).value.points = (ofLines options others).value.points := by
  rw [value_ofLines, value_ofLines, h]
  dsimp only
  split
  · exact congrArg (·.mapValues Point.averaged) (ofPoints_congr_description _ _ _ _).1
  · exact (ofPoints_congr_description _ _ _ _).1

theorem filter_isDuplicate_ofLines (options : LogOptions) (lines : List String)
    (description : String)
    : (ofLines options lines).diagnostics.filter Diagnostic.isDuplicate =
        (ofPoints description options.policy
          (lines.filterMap fun line => (Recognition.ofNamedLine line).point?)).diagnostics := by
  have hscan
      : (scan options.labels none lines).diagnostics.filter Diagnostic.isDuplicate = [] :=
    List.filter_eq_nil_iff.mpr fun d hd =>
      Diagnostic.not_isDuplicate (isOfLine_or_isConflict_of_mem_scan hd)
  rw [diagnostics_ofLines, List.filter_append, hscan, List.nil_append,
    List.filter_eq_self.mpr fun d hd => isDuplicate_of_mem_ofPoints hd]
  exact (ofPoints_congr_description _ _ _ _).2

theorem filter_isOfLine_ofLines (options : LogOptions) (lines : List String)
    : (ofLines options lines).diagnostics.filter Diagnostic.isOfLine =
        lines.filterMap fun line => (Recognition.ofNamedLine line).anomaly? := by
  have hpoints
      : (ofPoints (ofLines options lines).value.description options.policy
          (lines.filterMap fun line =>
            (Recognition.ofNamedLine line).point?)).diagnostics.filter Diagnostic.isOfLine = [] :=
    List.filter_eq_nil_iff.mpr fun d hd =>
      Diagnostic.not_isOfLine (Or.inr (isDuplicate_of_mem_ofPoints hd))
  rw [diagnostics_ofLines, List.filter_append, hpoints, List.append_nil, filter_isOfLine_scan]

/-- A group that meets the tag loses no measurement: the points are those of the whole text, the
same repeated keys are reported, and of the reports on single lines some may be missing. All other
reports are on descriptions. -/
theorem ofLines_lines_of_meetsTag {group : PatternGroup} (h : group.MeetsTag)
    (options : LogOptions) (text : String)
    : let kept := ofLines options (group.lines text)
      let whole := ofText options text
      kept.value.points = whole.value.points
      ∧ kept.diagnostics.filter Diagnostic.isDuplicate =
          whole.diagnostics.filter Diagnostic.isDuplicate
      ∧ (kept.diagnostics.filter Diagnostic.isOfLine).Sublist
          (whole.diagnostics.filter Diagnostic.isOfLine)
      ∧ ∀ d ∈ kept.diagnostics ++ whole.diagnostics,
          d.isOfLine = true ∨ d.isConflict = true ∨ d.isDuplicate = true := by
  intro kept whole
  have hpoints := h.filterMap_point?_lines text
  refine ⟨points_ofLines_congr options hpoints, ?_, ?_, fun d hd => ?_⟩
  · have hkept := filter_isDuplicate_ofLines options (group.lines text) ""
    have hwhole := filter_isDuplicate_ofLines options (Text.lines text) ""
    rw [hpoints] at hkept
    exact hkept.trans hwhole.symm
  · have hkept := filter_isOfLine_ofLines options (group.lines text)
    have hwhole := filter_isOfLine_ofLines options (Text.lines text)
    exact hkept ▸ hwhole ▸ List.filter_sublist.filterMap _
  · exact (List.mem_append.mp hd).elim kind_of_mem_ofLines kind_of_mem_ofLines

/-- A run that describes itself, with a key that comes twice and lines that stand for no point. -/
def noisyText : String :=
  "# Branch = main\nPERF_POINT, 1, 2, fib, [in], [a]\n CILKPUB_DATA_POINT , 3, 2, fib, [in], [b] x\n"
    ++ "CILKPUB_DATA_POINT, ?, 2, fib, [], []\nCILKPUB_DATA_POINT, 1, 2, fib, [in], [c]\n"

/-- The second pattern stands within the tag, the first in no line. -/
theorem ofLines_lines_of_meetsTag_noisyText
    : ∃ kept whole : Journal DataSet,
        kept = ofLines ⟨.warn, "run", false, defaultLabels⟩
          (PatternGroup.lines ⟨["# sort", "PUB_DATA"]⟩ noisyText)
        ∧ whole = ofText ⟨.warn, "run", false, defaultLabels⟩ noisyText
        ∧ PatternGroup.MeetsTag ⟨["# sort", "PUB_DATA"]⟩
        ∧ kept.value.points = whole.value.points
        ∧ whole.value.keys = [⟨"fib", "in", 2⟩]
        ∧ (kept.value.description, whole.value.description) = ("run", "main")
        ∧ (kept.diagnostics.length, whole.diagnostics.length) = (2, 3) := by
  have hmeets : PatternGroup.MeetsTag ⟨["# sort", "PUB_DATA"]⟩ :=
    Or.inr ⟨"PUB_DATA", by decide, by decide⟩
  obtain ⟨hpoints, -⟩ :=
    ofLines_lines_of_meetsTag hmeets ⟨.warn, "run", false, defaultLabels⟩ noisyText
  refine ⟨_, _, rfl, rfl, hmeets, hpoints, ?_⟩
  decide +kernel

end Log

end BenchLog
