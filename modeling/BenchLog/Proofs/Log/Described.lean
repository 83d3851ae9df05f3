import BenchLog.Proofs.DataSet.Folded
import BenchLog.Proofs.DataSet.Union
import BenchLog.Proofs.Log.Filtered

/-! What a log says of its run and all that is reported of it, in order.
Each line is reported by itself and then for the first description before it; after all lines come
the points whose keys were there before. Lines that are no points add nothing to the data set.
-/

namespace BenchLog

open DataSet

-----------------------------------------------------------------------------------------
-- Points that name their benchmark
-----------------------------------------------------------------------------------------

namespace DataSet

/-- Of points that name their benchmark only those are reported whose keys were there before, each
with the first point of its key. -/
theorem diagnostics_ofPoints_of_isValid (description : String) (policy : Policy)
    {points : List Point} (h : ∀ p ∈ points, p.isValid = true)
    : (ofPoints description policy points).diagnostics =
        points.zipIdx.filterMap fun (p, i) =>
          repeated? policy ((points.take i).find? fun q => q.key = p.key) p := by
  have hreports
      : (ofPoints description policy points).diagnostics =
          points.zipIdx.filterMap fun (p, i) => report? policy ([] ++ points.take i) p :=
    (gathers_empty description).diagnostics_insertAll
  rw [hreports]
  apply List.filterMap_congr
  rintro ⟨p, i⟩ hmem
  have hunder
      : (under p.key (points.take i)).head? = (points.take i).find? fun q => q.key = p.key := by
    rw [under, List.head?_filter]
    apply List.find?_congr
    intro q hq
    rw [h q (List.mem_of_mem_take hq), Bool.true_and]
  dsimp only
  rw [List.nil_append, report?, if_pos (h p (List.fst_mem_of_mem_zipIdx hmem)), repeated?, hunder]

end DataSet

namespace Log

variable {labels lines : List String}

-----------------------------------------------------------------------------------------
-- The reports of a scan
-----------------------------------------------------------------------------------------

/-- What is reported of a line that follows others: what is wrong with it as a point, and that it
describes the run differently from the first of the others that describes it. -/
def lineReports (labels earlier : List String) (line : String) : List Diagnostic :=
  (Recognition.ofNamedLine line).anomaly?.toList
    ++ (conflict? (earlier.findSome? (describes? labels)) (describes? labels line)).toList

/-- Lines are reported one after the other, each for those before it, by induction along the lines
that are left. -/
theorem diagnostics_scan_after (labels earlier lines : List String)
    : (scan labels (earlier.findSome? (describes? labels)) lines).diagnostics =
        (lines.zipIdx earlier.length).flatMap fun (line, i) =>
          lineReports labels ((earlier ++ lines).take i) line := by
  induction lines generalizing earlier with
  | nil => rfl
  | cons line lines ih =>
      have hrest := ih (earlier ++ [line])
      rw [List.findSome?_append, List.findSome?_singleton, List.length_append, List.append_assoc,
        List.singleton_append] at hrest
      rw [(scan_cons labels _ line lines).2, hrest, List.zipIdx_cons, List.flatMap_cons]
      dsimp only
      rw [List.take_left, lineReports, List.append_assoc]
      rfl

/-- A line with a report of its own is no point. -/
theorem point?_eq_none_of_anomaly? {line : String} {d : Diagnostic}
    (h : (Recognition.ofNamedLine line).anomaly? = some d)
    : (Recognition.ofNamedLine line).point? = none := by
  cases hread : Recognition.ofNamedLine line with
  | unrelated | rejected => rfl
  | accepted p =>
      rw [hread] at h
      cases h

theorem filterMap_point?_filter (lines : List String)
    : (lines.filter fun line => (Recognition.ofNamedLine line).point?.isSome).filterMap
          (fun line => (Recognition.ofNamedLine line).point?) =
        lines.filterMap fun line => (Recognition.ofNamedLine line).point? := by
  rw [List.filterMap_filter]
  apply List.filterMap_congr
  intro line _
  cases (Recognition.ofNamedLine line).point? <;> rfl

-----------------------------------------------------------------------------------------
-- The whole log
-----------------------------------------------------------------------------------------

/-- A log is described by the first of its lines that is no point and gives a value to a label.
Its lines are reported in order, each for itself and for the description before it, and then the
points whose keys came before. The points depend on the lines that are points alone. -/
theorem ofLines_account (options : LogOptions) (lines : List String)
    : let log := ofLines options lines
      let points := lines.filterMap fun line => (Recognition.ofNamedLine line).point?
      log.value.description =
          (lines.findSome? (describes? options.labels)).getD options.defaultDescription
      ∧ log.diagnostics =
          (lines.zipIdx.flatMap fun (line, i) => lineReports options.labels (lines.take i) line)
            ++ points.zipIdx.filterMap (fun (p, i) =>
              repeated? options.policy ((points.take i).find? fun q => q.key = p.key) p)
      ∧ (∀ line d, (Recognition.ofNamedLine line).anomaly? = some d →
          d.isOfLine = true ∧ (Recognition.ofNamedLine line).point? = none)
      ∧ ∀ others : List String,
          others.filter (fun line => (Recognition.ofNamedLine line).point?.isSome) =
              lines.filter (fun line => (Recognition.ofNamedLine line).point?.isSome) →
            (ofLines options others).value.points = log.value.points := by
  intro log points
  have hvalid : ∀ p ∈ points, p.isValid = true := by
    intro p hp
    obtain ⟨line, -, hread⟩ := List.mem_filterMap.mp hp
    exact (Recognition.point?_ofNamedLine_iff.mp hread).2
  refine ⟨description_ofLines options lines, ?_, fun line d h => ?_, fun others hothers => ?_⟩
  · have hscan := diagnostics_scan_after options.labels [] lines
    rw [List.findSome?_nil] at hscan
    rw [diagnostics_ofLines, diagnostics_ofPoints_of_isValid _ _ hvalid, hscan]
    rfl
  · exact ⟨Recognition.isOfLine_of_anomaly? h, point?_eq_none_of_anomaly? h⟩
  · apply points_ofLines_congr
    rw [← filterMap_point?_filter, hothers, filterMap_point?_filter]

/-- A line of another tag that gives a value to a label, a second description, a field that is no
number and a key that comes twice. -/
def describedLines : List String :=
  ["PERF, 1, 2, fib, [n = 5], [a]", "CILKPUB_DATA_POINT, 1, 2, fib, [], [a]", "# Branch = main",
    "CILKPUB_DATA_POINT, ?, 2, fib, [], []", "CILKPUB_DATA_POINT, 2, 2, fib, [], [b]"]

/-- A line that is rejected as a point may describe the run. -/
theorem ofLines_account_describedLines
    : let options : LogOptions := ⟨.warn, "run", false, ["branch", "perf, 1, 2, fib, [n"]⟩
      let log := ofLines options describedLines
      let others := ["# Version = 7", describedLines[1], "", describedLines[4]]
      others.filter (fun line => (Recognition.ofNamedLine line).point?.isSome) =
          describedLines.filter (fun line => (Recognition.ofNamedLine line).point?.isSome)
      ∧ log.value.description = "5], [a]"
      ∧ log.diagnostics.map (·.message) =
          ["line [PERF, 1, 2, fib, [n = 5], [a]] matched, but prefix does not match",
            "desc = 5], [a]. Found another description main",
            "line [CILKPUB_DATA_POINT, ?, 2, fib, [], []] has a malformed time field: \"?\"",
            "duplicate data point fib, , 02: existing = fib, 2, 1.000000, , a, 1"
              ++ ", new = fib, 2, 2.000000, , b, 1"]
      ∧ (ofLines options others).value.points = log.value.points := by
  intro options log others
  obtain ⟨hdescription, hdiagnostics, -, hpoints⟩ := ofLines_account options describedLines
  have hsame
      : others.filter (fun line => (Recognition.ofNamedLine line).point?.isSome) =
          describedLines.filter (fun line => (Recognition.ofNamedLine line).point?.isSome) := by
    decide +kernel
  refine ⟨hsame, hdescription.trans (by decide +kernel), ?_, hpoints others hsame⟩
  rw [hdiagnostics]
  decide +kernel

end Log

end BenchLog
