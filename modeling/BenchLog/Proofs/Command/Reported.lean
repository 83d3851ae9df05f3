import BenchLog.Proofs.Command.Ensured
import BenchLog.Proofs.Log.Logged
import BenchLog.Summary

/-! What a successful command logs and returns.
Whatever the files are and however they are read and written, the anomalies that a command returns
are those that it logs, in the same order.
-/

namespace BenchLog

open Command (Ensures)

variable {σ : Type} [Disk (StateM σ)]

-----------------------------------------------------------------------------------------
-- Summaries
-----------------------------------------------------------------------------------------

/-- What is read from a file has its anomalies logged, and then that it was read. -/
theorem Command.ensures_load {α : Type} (failure : FileError → Failure) (path : Path)
    {read : List UInt8 → Journal α} {done : α → Event} (hread : ∀ bytes, (read bytes).Agrees)
    (hdone : ∀ a, (done a).anomaly? = none)
    : Ensures (Command.load failure path read done : Command (StateM σ) _) fun result logged =>
        logged.filterMap Event.anomaly? = result.2 := by
  refine .bind (.access _ _) ?_
  rintro bytes _ rfl
  refine .bind (.journal _) ?_
  rintro _ _ ⟨rfl, rfl⟩
  refine .bind (.log _) ?_
  rintro _ _ rfl
  refine .mono (.pure _) ?_
  rintro _ _ ⟨rfl, rfl⟩
  rw [List.nil_append, List.append_nil, List.filterMap_append, hread,
    List.filterMap_cons_none (hdone _)]
  exact List.append_nil _

theorem Log.ensures_ofFile (failure : Path → FileError → Failure) (options : LogOptions)
    (path : Path)
    : Ensures (Log.ofFile failure options path : Command (StateM σ) _) fun read logged =>
        logged.filterMap Event.anomaly? = read.2 :=
  Command.ensures_load (failure path) path (fun _ => agrees_ofLines _ _) fun _ => rfl

theorem DataSet.ensures_save (format : SummaryFormat) (path : Path) (set : DataSet)
    : Ensures (set.save format path : Command (StateM σ) _) fun _ logged =>
        logged.filterMap Event.anomaly? = [] := by
  unfold DataSet.save
  cases format with
  | text =>
      refine .bind (.access _ _) ?_
      rintro _ _ rfl
      refine .mono (.log _) ?_
      rintro _ _ rfl
      rfl
  | json =>
      refine .mono (.access _ _) ?_
      rintro _ _ rfl
      rfl

theorem ensures_summarize (input output : Path) (mode : Mode) (format : SummaryFormat)
    (settings : ParseSettings)
    : Ensures (summarize input output mode format settings : Command (StateM σ) _)
        fun summary logged => logged.filterMap Event.anomaly? = summary.diagnostics := by
  refine .bind (.log _) ?_
  rintro _ _ rfl
  refine .bind (Log.ensures_ofFile _ _ _) ?_
  rintro ⟨set, diagnostics⟩ read hread
  refine .bind (DataSet.ensures_save _ _ _) ?_
  rintro _ saved hsaved
  refine .mono (.pure _) ?_
  rintro _ _ ⟨rfl, rfl⟩
  simp only [List.filterMap_append, hread, hsaved, List.append_nil]
  rfl

-----------------------------------------------------------------------------------------
-- Comparisons
-----------------------------------------------------------------------------------------

theorem ensures_loadFiltered (settings : ParseSettings) (path : Path)
    : Ensures (loadFiltered settings path : Command (StateM σ) _) fun read logged =>
        logged.filterMap Event.anomaly? = read.2 :=
  Command.ensures_load (.readWhole path) path (fun _ => Log.agrees_readGroups _ _ _) fun _ => rfl

theorem Comparison.ensures_loadNew (settings : ParseSettings) (baseline : DataSet)
    (new? : Option Path)
    : Ensures (Comparison.loadNew settings baseline new? : Command (StateM σ) _) fun read logged =>
        logged.filterMap Event.anomaly? = read.2 := by
  cases new? with
  | some path => exact ensures_loadFiltered settings path
  | none =>
      refine .mono (.pure _) ?_
      rintro _ _ ⟨rfl, rfl⟩
      rfl

theorem Comparison.ensures_write (baseline new : DataSet) (diagnostics : List Diagnostic)
    (output : Path) (thresholds : Thresholds)
    : Ensures (Comparison.write baseline new diagnostics output thresholds : Command (StateM σ) _)
        fun comparison logged =>
          comparison.diagnostics = diagnostics
          ∧ logged.filterMap Event.anomaly? = comparison.report.diagnostics := by
  obtain ⟨hcompared, -⟩ := Report.anomalies_compare baseline new thresholds
  refine .bind (.journal _) ?_
  rintro _ _ ⟨rfl, rfl⟩
  refine .log_if ?_ (.bind (.access _ _) ?_)
  · rintro comparison logged ⟨hdiagnostics, hlogged⟩
    refine ⟨hdiagnostics, ?_⟩
    rw [List.filterMap_append] at hlogged ⊢
    exact hlogged
  · rintro _ _ rfl
    refine .bind (.log _) ?_
    rintro _ _ rfl
    refine .mono (.pure _) ?_
    rintro _ _ ⟨rfl, rfl⟩
    refine ⟨rfl, ?_⟩
    rw [List.filterMap_append, hcompared]
    exact List.append_nil _

theorem ensures_diff (base : Path) (new? : Option Path) (output : Path) (thresholds : Thresholds)
    (settings : ParseSettings)
    : Ensures (diff base new? output thresholds settings : Command (StateM σ) _)
        fun comparison logged =>
          logged.filterMap Event.anomaly? =
            comparison.diagnostics ++ comparison.report.diagnostics := by
  refine .bind (ensures_loadFiltered settings base) ?_
  rintro ⟨baseline, earlier⟩ first hfirst
  refine .bind (Comparison.ensures_loadNew settings baseline new?) ?_
  rintro ⟨new, later⟩ second hsecond
  refine .mono (Comparison.ensures_write _ _ _ _ _) ?_
  rintro comparison rest ⟨hdiagnostics, hrest⟩
  rw [List.filterMap_append, List.filterMap_append, hfirst, hsecond, hrest, hdiagnostics,
    List.append_assoc]

-----------------------------------------------------------------------------------------
-- What is logged for the anomalies
-----------------------------------------------------------------------------------------

/-- The events for anomalies are one for each of the list, in its order, with the level that
anomalies of its kind have and with its message. -/
structure Event.Tell (events : List Event) (anomalies : List Diagnostic) : Prop where
  logged : events.filterMap Event.anomaly? = anomalies
  shown
    : (events.filter fun e => e.anomaly?.isSome).map (fun e => (e.level, e.text)) =
        anomalies.map fun d =>
          (match d with
            | .keyMismatch .. => Level.error
            | .newDataPoint .. => Level.info
            | _ => Level.warn,
            d.message)

/-- The events for anomalies hold the anomalies, by induction along the events. -/
theorem Event.filter_isSome_anomaly? (events : List Event)
    : (events.filter fun e => e.anomaly?.isSome) =
        (events.filterMap Event.anomaly?).map Event.anomaly := by
  induction events with
  | nil => rfl
  | cons e events ih =>
      cases e with
      | anomaly d => exact congrArg (Event.anomaly d :: ·) ih
      | _ => exact ih

theorem Event.Tell.of_logged {events : List Event} {anomalies : List Diagnostic}
    (h : events.filterMap Event.anomaly? = anomalies)
    : Event.Tell events anomalies := by
  refine ⟨h, ?_⟩
  rw [filter_isSome_anomaly?, h, List.map_map]
  apply List.map_congr_left
  intro d _
  cases d <;> rfl

/-- Whatever the files are, every anomaly of a successful command is logged once and returned
once. -/
theorem anomalies_of_success (disk : σ)
    : (∀ input output mode format settings summary events after,
        (summarize input output mode format settings : Command (StateM σ) _).outcome.run disk =
            ((.ok summary, events), after) →
          Event.Tell events summary.diagnostics)
      ∧ ∀ base new? output thresholds settings comparison events after,
          (diff base new? output thresholds settings : Command (StateM σ) _).outcome.run disk =
              ((.ok comparison, events), after) →
            Event.Tell events (comparison.diagnostics ++ comparison.report.diagnostics) := by
  constructor
  · intro input output mode format settings summary events after hrun
    obtain ⟨_, rfl, hlogged⟩ := ensures_summarize _ _ _ _ _ _ _ _ _ _ hrun
    exact .of_logged hlogged
  · intro base new? output thresholds settings comparison events after hrun
    obtain ⟨_, rfl, hlogged⟩ := ensures_diff _ _ _ _ _ _ _ _ _ _ hrun
    exact .of_logged hlogged

/-- Two logs: one with a field that is no number and a second description, and one with a point
that the first one lacks. -/
def anomalousTree : FileTree :=
  ⟨[(["old.log".toList],
      Text.bytesOfText
        ("# Branch = main\nCILKPUB_DATA_POINT, 0, 2, fib, [in], [a]\n# Version = 7\n"
          ++ "CILKPUB_DATA_POINT, x, 2, fib, [in], [a]\n")),
    (["new.log".toList],
      Text.bytesOfText
        ("CILKPUB_DATA_POINT, 1, 2, fib, [in], [a]\nCILKPUB_DATA_POINT, 1, 2, sort, [in], [a]\n"))]⟩

theorem anomalies_of_success_anomalousTree
    : (∃ summary events after,
        (summarize ⟨"old.log"⟩ ⟨"sum.log"⟩ .avg .text {} : Command (StateM FileTree) _).outcome.run
            anomalousTree =
          ((.ok summary, events), after)
        ∧ summary.diagnostics.length = 2
        ∧ Event.Tell events summary.diagnostics)
      ∧ ∃ comparison events after,
          (diff ⟨"old.log"⟩ (some ⟨"new.log"⟩) ⟨"diff.txt"⟩ .standard { filters := [[]] }
              : Command (StateM FileTree) _).outcome.run anomalousTree =
            ((.ok comparison, events), after)
          ∧ comparison.diagnostics.length = 2
          ∧ comparison.report.diagnostics.length = 2
          ∧ Event.Tell events (comparison.diagnostics ++ comparison.report.diagnostics) := by
  obtain ⟨hsummaries, hcomparisons⟩ := anomalies_of_success anomalousTree
  constructor
  · have hcount
        : ((summarize ⟨"old.log"⟩ ⟨"sum.log"⟩ .avg .text {}
              : Command (StateM FileTree) _).outcome.run anomalousTree).1.1.toOption.map
            (·.diagnostics.length) = some 2 := by
      decide +kernel
    rcases hrun : (summarize ⟨"old.log"⟩ ⟨"sum.log"⟩ .avg .text {}
        : Command (StateM FileTree) _).outcome.run anomalousTree with
      ⟨⟨_ | summary, events⟩, after⟩
    · rw [hrun] at hcount
      cases hcount
    · rw [hrun] at hcount
      exact ⟨summary, events, after, rfl, Option.some.inj hcount,
        hsummaries _ _ _ _ _ _ _ _ hrun⟩
  · have hcount
        : ((diff ⟨"old.log"⟩ (some ⟨"new.log"⟩) ⟨"diff.txt"⟩ .standard { filters := [[]] }
              : Command (StateM FileTree) _).outcome.run anomalousTree).1.1.toOption.map
            (fun comparison =>
              (comparison.diagnostics.length, comparison.report.diagnostics.length)) =
              some (2, 2) := by
      decide +kernel
    rcases hrun : (diff ⟨"old.log"⟩ (some ⟨"new.log"⟩) ⟨"diff.txt"⟩ .standard { filters := [[]] }
        : Command (StateM FileTree) _).outcome.run anomalousTree with
      ⟨⟨_ | comparison, events⟩, after⟩
    · rw [hrun] at hcount
      cases hcount
    · rw [hrun] at hcount
      obtain ⟨hread, hcompared⟩ := Prod.mk.inj (Option.some.inj hcount)
      exact ⟨comparison, events, after, rfl, hread, hcompared,
        hcomparisons _ _ _ _ _ _ _ _ hrun⟩

end BenchLog
