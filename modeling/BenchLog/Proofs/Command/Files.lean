import BenchLog.Proofs.Command.Reported
import BenchLog.Proofs.FileTree

/-! What commands leave behind among the files.
Whatever is logged, a command reads all of its logs before it writes, and it writes once. So it
leaves all files as they are if it fails, and changes only the file of its output otherwise.
-/

namespace BenchLog

variable {σ α β : Type}

-----------------------------------------------------------------------------------------
-- Results and states of the files
-----------------------------------------------------------------------------------------

namespace Command

/-- From one state of the files, whatever has been logged, the command comes to the result and
leaves the other state. -/
def Yields (command : Command (StateM σ) α) (disk : σ) (result : Except Failure α) (after : σ)
    : Prop :=
  ∀ earlier, ∃ events, exec command earlier disk = ((result, events), after)

namespace Yields

variable {disk between after : σ}

theorem exists_outcome {command : Command (StateM σ) α} {result : Except Failure α}
    (h : Yields command disk result after)
    : ∃ events, command.outcome.run disk = ((result, events), after) :=
  h []

theorem pure (a : α)
    : Yields (Pure.pure a : Command (StateM σ) α) disk (.ok a) disk :=
  fun earlier => ⟨earlier, rfl⟩

/-- A sequence goes on where the first command has led to. -/
theorem bind {command : Command (StateM σ) α} {next : α → Command (StateM σ) β} {a : α}
    {result : Except Failure β} (hcommand : Yields command disk (.ok a) between)
    (hnext : Yields (next a) between result after)
    : Yields (command >>= next) disk result after := by
  intro earlier
  obtain ⟨middle, hfirst⟩ := hcommand earlier
  obtain ⟨events, hsecond⟩ := hnext middle
  exact ⟨events, by rw [exec_bind, hfirst]; exact hsecond⟩

/-- After a failure nothing more is done. -/
theorem bind_error {command : Command (StateM σ) α} {failure : Failure}
    (hcommand : Yields command disk (.error failure) after) (next : α → Command (StateM σ) β)
    : Yields (command >>= next) disk (.error failure) after := by
  intro earlier
  obtain ⟨events, hfirst⟩ := hcommand earlier
  exact ⟨events, by rw [exec_bind, hfirst]⟩

theorem log (events : List Event)
    : Yields (Command.log events) disk (.ok ()) disk :=
  fun earlier => ⟨earlier ++ events, by rw [exec, run_log]; rfl⟩

/-- Whether something is logged before changes nothing. -/
theorem log_if {c : Prop} [Decidable c] (events : List Event)
    {next : Unit → Command (StateM σ) α} {result : Except Failure α}
    (h : Yields (next ()) disk result after)
    : Yields (if c then Command.log events >>= next else next ()) disk result after := by
  split
  · exact .bind (.log events) h
  · exact h

theorem journal (x : Journal α)
    : Yields (Command.journal x) disk (.ok (x.value, x.diagnostics)) disk :=
  fun earlier => ⟨earlier ++ x.events, by rw [exec, run_journal]; rfl⟩

/-- An access leaves the files as it does by itself. -/
theorem access {x : StateM σ (Except FileError α)} {found : Except FileError α}
    (h : x.run disk = (found, after)) (failure : FileError → Failure)
    : Yields (Command.access failure x) disk (found.mapError failure) after := by
  intro earlier
  refine ⟨earlier, ?_⟩
  rw [exec, run_access, StateT.run_bind, h]
  rfl

end Yields

/-- A run of which something is seen in the result has succeeded. -/
theorem exists_of_toOption_map {run : (Except Failure α × List Event) × σ} {f : α → β} {b : β}
    (h : run.1.1.toOption.map f = some b)
    : ∃ a events after, run = ((.ok a, events), after) ∧ f a = b := by
  obtain ⟨⟨_ | a, events⟩, after⟩ := run
  · cases h
  · exact ⟨a, events, after, rfl, Option.some.inj h⟩

end Command

open Command (Yields)

-----------------------------------------------------------------------------------------
-- Single accesses
-----------------------------------------------------------------------------------------

namespace FileTree

variable {tree : FileTree} {p : Path} {bytes : List UInt8}

/-- The file to which the path leads can be read. -/
def Readable (tree : FileTree) (p : Path) : Prop :=
  ∃ bytes, tree.read p = .ok bytes

/-- A file can be created at the path, or replaced. -/
def Creatable (tree : FileTree) (p : Path) : Prop :=
  ∃ names, tree.target p = .ok names

theorem run_write (tree : FileTree) (p : Path) (bytes : List UInt8)
    : (Disk.write p bytes : StateM FileTree _).run tree =
        match tree.write p bytes with
        | .ok after => (.ok (), after)
        | .error e => (.error e, tree) := by
  change
    (match tree.write p bytes with | .ok after => _ | .error e => _ : StateM FileTree _).run _ = _
  cases tree.write p bytes <;> rfl

/-- Reading leaves all files as they are, also when it fails. -/
theorem yields_read (h : tree.read p = .ok bytes) (failure : FileError → Failure)
    : Yields (Command.access failure (Disk.read p)) tree (.ok bytes) tree :=
  .access (congrArg (·, tree) h) failure

theorem yields_read_error (h : ¬ tree.Readable p)
    : ∃ e, ∀ failure,
        Yields (Command.access failure (Disk.read p) : Command (StateM FileTree) (List UInt8)) tree
          (.error (failure e)) tree := by
  cases hread : tree.read p with
  | ok bytes => exact absurd ⟨bytes, hread⟩ h
  | error e => exact ⟨e, fun failure => .access (congrArg (·, tree) hread) failure⟩

/-- Writing changes one file at most, and none when it fails. -/
theorem exists_yields_write (h : tree.Creatable p) (bytes : List UInt8)
    : ∃ after, tree.Updates p bytes after ∧
        ∀ failure, Yields (Command.access failure (Disk.write p bytes)) tree (.ok ()) after := by
  obtain ⟨names, htarget⟩ := h
  have hwrite : tree.write p bytes = .ok ⟨putFile names bytes tree.files⟩ := by
    rw [write, htarget]
    rfl
  have hrun := run_write tree p bytes
  rw [hwrite] at hrun
  exact ⟨_, updates_of_write hwrite, fun failure => .access hrun failure⟩

theorem yields_write_error (h : ¬ tree.Creatable p) (bytes : List UInt8)
    : ∃ e, ∀ failure,
        Yields (Command.access failure (Disk.write p bytes)) tree (.error (failure e)) tree := by
  cases htarget : tree.target p with
  | ok names => exact absurd ⟨names, htarget⟩ h
  | error e =>
      have hwrite : tree.write p bytes = .error e := by
        rw [write, htarget]
        rfl
      have hrun := run_write tree p bytes
      rw [hwrite] at hrun
      exact ⟨e, fun failure => .access hrun failure⟩

end FileTree

section

variable {tree : FileTree} {path output : Path} {bytes : List UInt8}

-----------------------------------------------------------------------------------------
-- Reading logs
-----------------------------------------------------------------------------------------

section

variable {α : Type} (failure : FileError → Failure) (read : List UInt8 → Journal α)
  (done : α → Event)

/-- A file is read and nothing else is done. -/
theorem Command.yields_load (h : tree.read path = .ok bytes)
    : Yields (Command.load failure path read done) tree
        (.ok ((read bytes).value, (read bytes).diagnostics)) tree :=
  .bind (FileTree.yields_read h failure)
    (.bind (.journal (read bytes)) (.bind (.log _) (.pure _)))

theorem Command.yields_load_error (h : ¬ tree.Readable path)
    : ∃ cause, Yields (Command.load failure path read done) tree (.error cause) tree := by
  obtain ⟨e, hread⟩ := FileTree.yields_read_error h
  exact ⟨_, .bind_error (hread _) _⟩

end

theorem Log.yields_ofFile (failure : Path → FileError → Failure) (options : LogOptions)
    (h : tree.read path = .ok bytes)
    : let log := Log.ofBytes options bytes
      Yields (Log.ofFile failure options path) tree (.ok (log.value, log.diagnostics)) tree :=
  Command.yields_load (failure path) _ _ h

theorem yields_loadFiltered (settings : ParseSettings) (h : tree.read path = .ok bytes)
    : let log := Log.readGroups settings path (Text.textOfBytes bytes)
      Yields (loadFiltered settings path) tree (.ok (log.value, log.diagnostics)) tree :=
  Command.yields_load (.readWhole path) _ _ h

theorem yields_loadFiltered_error (settings : ParseSettings) (h : ¬ tree.Readable path)
    : ∃ failure, Yields (loadFiltered settings path) tree (.error failure) tree :=
  Command.yields_load_error (.readWhole path) _ _ h

-----------------------------------------------------------------------------------------
-- Summaries
-----------------------------------------------------------------------------------------

theorem DataSet.exists_yields_save (h : tree.Creatable path) (format : SummaryFormat)
    (set : DataSet)
    : ∃ after, tree.Updates path (Text.bytesOfText (Summary.contents format set)) after
        ∧ Yields (set.save format path) tree (.ok ()) after := by
  obtain ⟨after, hupdates, hwrite⟩ :=
    FileTree.exists_yields_write h (Text.bytesOfText (Summary.contents format set))
  refine ⟨after, hupdates, ?_⟩
  cases format with
  | text => exact .bind (hwrite _) (.log _)
  | json => exact hwrite _

theorem DataSet.yields_save_error (h : ¬ tree.Creatable path) (format : SummaryFormat)
    (set : DataSet)
    : ∃ failure, Yields (set.save format path) tree (.error failure) tree := by
  obtain ⟨e, hwrite⟩ :=
    FileTree.yields_write_error h (Text.bytesOfText (Summary.contents format set))
  cases format with
  | text => exact ⟨_, .bind_error (hwrite _) _⟩
  | json => exact ⟨_, hwrite _⟩

section

variable {input : Path} {mode : Mode} (format : SummaryFormat) (settings : ParseSettings)

theorem exists_yields_summarize (hread : tree.read input = .ok bytes)
    (houtput : tree.Creatable (mode.path output))
    : let log := Log.ofBytes (Summary.options mode settings input) bytes
      ∃ after,
        tree.Updates (mode.path output) (Text.bytesOfText (Summary.contents format log.value)) after
        ∧ Yields (summarize input output mode format settings) tree
            (.ok ⟨mode.path output, log.value, log.diagnostics⟩) after := by
  intro log
  obtain ⟨after, hupdates, hsave⟩ := DataSet.exists_yields_save houtput format log.value
  exact ⟨after, hupdates,
    .bind (.log _) (.bind (Log.yields_ofFile _ _ hread) (.bind hsave (.pure _)))⟩

/-- A summary fails if its log cannot be read, and else if its file cannot be created. -/
theorem yields_summarize_error (h : ¬ (tree.Readable input ∧ tree.Creatable (mode.path output)))
    : ∃ failure,
        Yields (summarize input output mode format settings) tree (.error failure) tree := by
  by_cases hread : tree.Readable input
  · have houtput : ¬ tree.Creatable (mode.path output) := fun houtput => h ⟨hread, houtput⟩
    obtain ⟨bytes, hbytes⟩ := hread
    let log := Log.ofBytes (Summary.options mode settings input) bytes
    obtain ⟨failure, hsave⟩ := DataSet.yields_save_error houtput format log.value
    exact ⟨failure, .bind (.log _) (.bind (Log.yields_ofFile _ _ hbytes) (.bind_error hsave _))⟩
  · obtain ⟨failure, hload⟩ := Command.yields_load_error (.readSummaryLog input) _ _ hread
    exact ⟨failure, .bind (.log _) (.bind_error hload _)⟩

end

-----------------------------------------------------------------------------------------
-- Comparisons
-----------------------------------------------------------------------------------------

section

variable (baseline new : DataSet) (diagnostics : List Diagnostic) (thresholds : Thresholds)

theorem Comparison.exists_yields_write (h : tree.Creatable output)
    : let report := (Report.compare baseline new thresholds).value
      ∃ after, tree.Updates output (Text.bytesOfText report.text) after
        ∧ Yields (Comparison.write baseline new diagnostics output thresholds) tree
            (.ok ⟨baseline, new, report, diagnostics⟩) after := by
  intro report
  obtain ⟨after, hupdates, hwrite⟩ :=
    FileTree.exists_yields_write h (Text.bytesOfText report.text)
  exact ⟨after, hupdates,
    .bind (.journal _) (.log_if _ (.bind (hwrite _) (.bind (.log _) (.pure _))))⟩

theorem Comparison.yields_write_error (h : ¬ tree.Creatable output)
    : ∃ failure,
        Yields (Comparison.write baseline new diagnostics output thresholds) tree
          (.error failure) tree := by
  let report := (Report.compare baseline new thresholds).value
  obtain ⟨e, hwrite⟩ := FileTree.yields_write_error h (Text.bytesOfText report.text)
  exact ⟨_, .bind (.journal _) (.log_if _ (.bind_error (hwrite _) _))⟩

end

/-- The data set is what is read through the groups of patterns from the file of a log. -/
def Log.LoadedFrom (tree : FileTree) (settings : ParseSettings) (path : Path) (set : DataSet)
    : Prop :=
  ∃ bytes, tree.read path = .ok bytes
    ∧ set = (Log.readGroups settings path (Text.textOfBytes bytes)).value

section

variable {base : Path} {new? : Option Path} (thresholds : Thresholds) (settings : ParseSettings)

theorem Comparison.exists_yields_loadNew (hnew : ∀ path ∈ new?, tree.Readable path)
    (baseline : DataSet)
    : ∃ new,
        Yields (Comparison.loadNew settings baseline new?) tree (.ok new) tree
        ∧ (new? = none → new.1 = baseline)
        ∧ ∀ path ∈ new?, Log.LoadedFrom tree settings path new.1 := by
  cases new? with
  | none => exact ⟨(baseline, []), .pure _, fun _ => rfl, fun _ h => (nomatch h)⟩
  | some path =>
      obtain ⟨bytes, hbytes⟩ := hnew path rfl
      refine ⟨_, yields_loadFiltered settings hbytes, fun h => (nomatch h), fun found hfound => ?_⟩
      cases hfound
      exact ⟨bytes, hbytes, rfl⟩

theorem Comparison.yields_loadNew_error (h : ¬ ∀ path ∈ new?, tree.Readable path)
    (baseline : DataSet)
    : ∃ failure,
        Yields (Comparison.loadNew settings baseline new?) tree (.error failure) tree := by
  cases new? with
  | none => exact absurd (fun _ h => nomatch h) h
  | some path =>
      apply yields_loadFiltered_error settings
      intro hpath
      apply h
      intro found hfound
      cases hfound
      exact hpath

/-- A comparison succeeds if its logs can be read and its report can be created. -/
theorem exists_yields_diff (hbase : tree.Readable base) (hnew : ∀ path ∈ new?, tree.Readable path)
    (houtput : tree.Creatable output)
    : ∃ comparison after,
        Yields (diff base new? output thresholds settings) tree (.ok comparison) after
        ∧ Log.LoadedFrom tree settings base comparison.baseline
        ∧ (new? = none → comparison.new = comparison.baseline)
        ∧ (∀ path ∈ new?, Log.LoadedFrom tree settings path comparison.new)
        ∧ comparison.report =
            (Report.compare comparison.baseline comparison.new thresholds).value
        ∧ tree.Updates output (Text.bytesOfText comparison.report.text) after := by
  obtain ⟨bytes, hbytes⟩ := hbase
  let log := Log.readGroups settings base (Text.textOfBytes bytes)
  obtain ⟨new, hload, hself, hother⟩ :=
    Comparison.exists_yields_loadNew settings hnew log.value
  obtain ⟨after, hupdates, hwrite⟩ :=
    Comparison.exists_yields_write log.value new.1 (log.diagnostics ++ new.2) thresholds houtput
  let report := (Report.compare log.value new.1 thresholds).value
  refine ⟨⟨log.value, new.1, report, log.diagnostics ++ new.2⟩, after, ?_, ⟨bytes, hbytes, rfl⟩,
    hself, hother, rfl, hupdates⟩
  exact .bind (yields_loadFiltered settings hbytes) (.bind hload hwrite)

/-- A comparison fails if one of its logs cannot be read, and else if its report cannot be
created. -/
theorem yields_diff_error
    (h : ¬ (tree.Readable base ∧ (∀ path ∈ new?, tree.Readable path) ∧ tree.Creatable output))
    : ∃ failure, Yields (diff base new? output thresholds settings) tree (.error failure) tree := by
  by_cases hbase : tree.Readable base
  · obtain ⟨bytes, hbytes⟩ := hbase
    let log := Log.readGroups settings base (Text.textOfBytes bytes)
    have hlog := yields_loadFiltered settings hbytes
    by_cases hnew : ∀ path ∈ new?, tree.Readable path
    · have houtput : ¬ tree.Creatable output := fun houtput => h ⟨⟨bytes, hbytes⟩, hnew, houtput⟩
      obtain ⟨new, hload, -⟩ := Comparison.exists_yields_loadNew settings hnew log.value
      obtain ⟨failure, hwrite⟩ :=
        Comparison.yields_write_error log.value new.1 (log.diagnostics ++ new.2) thresholds houtput
      exact ⟨failure, .bind hlog (.bind hload hwrite)⟩
    · obtain ⟨failure, hload⟩ := Comparison.yields_loadNew_error settings hnew log.value
      exact ⟨failure, .bind hlog (.bind_error hload _)⟩
  · obtain ⟨failure, hload⟩ := yields_loadFiltered_error settings hbase
    exact ⟨failure, .bind_error hload _⟩

end

end

-----------------------------------------------------------------------------------------
-- Outcomes
-----------------------------------------------------------------------------------------

/-- A command fails exactly if one of its logs cannot be read or its output cannot be created, and
then every file is left as it was. Otherwise its output has what the result stands for, which was
read from the files as they had been, and no other file is changed. -/
theorem files_of_outcome (tree : FileTree)
    : (∀ input output mode format settings,
        let run :=
          (summarize input output mode format settings
            : Command (StateM FileTree) Summary).outcome.run tree
        match run.1.1 with
        | .error _ =>
            ¬ (tree.Readable input ∧ tree.Creatable (mode.path output))
            ∧ run.2 = tree
        | .ok summary =>
            tree.Creatable (mode.path output)
            ∧ (∃ bytes, tree.read input = .ok bytes
                ∧ summary.set = (Log.ofBytes (Summary.options mode settings input) bytes).value)
            ∧ summary.path = mode.path output
            ∧ tree.Updates (mode.path output)
                (Text.bytesOfText (Summary.contents format summary.set)) run.2)
      ∧ ∀ base new? output thresholds settings,
          let run :=
            (diff base new? output thresholds settings
              : Command (StateM FileTree) Comparison).outcome.run tree
          match run.1.1 with
          | .error _ =>
              ¬ (tree.Readable base ∧ (∀ path ∈ new?, tree.Readable path) ∧ tree.Creatable output)
              ∧ run.2 = tree
          | .ok comparison =>
              tree.Creatable output
              ∧ Log.LoadedFrom tree settings base comparison.baseline
              ∧ (new? = none → comparison.new = comparison.baseline)
              ∧ (∀ path ∈ new?, Log.LoadedFrom tree settings path comparison.new)
              ∧ comparison.report =
                  (Report.compare comparison.baseline comparison.new thresholds).value
              ∧ tree.Updates output (Text.bytesOfText comparison.report.text) run.2 := by
  constructor
  · intro input output mode format settings
    dsimp only
    by_cases h : tree.Readable input ∧ tree.Creatable (mode.path output)
    · obtain ⟨⟨bytes, hread⟩, houtput⟩ := h
      obtain ⟨after, hupdates, hyields⟩ :=
        exists_yields_summarize format settings hread houtput
      obtain ⟨events, hrun⟩ := hyields.exists_outcome
      rw [hrun]
      exact ⟨houtput, ⟨bytes, hread, rfl⟩, rfl, hupdates⟩
    · obtain ⟨failure, hyields⟩ := yields_summarize_error format settings h
      obtain ⟨events, hrun⟩ := hyields.exists_outcome
      rw [hrun]
      exact ⟨h, rfl⟩
  · intro base new? output thresholds settings
    dsimp only
    by_cases h
        : tree.Readable base ∧ (∀ path ∈ new?, tree.Readable path) ∧ tree.Creatable output
    · obtain ⟨hbase, hnew, houtput⟩ := h
      obtain ⟨comparison, after, hyields, hcomparison⟩ :=
        exists_yields_diff thresholds settings hbase hnew houtput
      obtain ⟨events, hrun⟩ := hyields.exists_outcome
      rw [hrun]
      exact ⟨houtput, hcomparison⟩
    · obtain ⟨failure, hyields⟩ := yields_diff_error thresholds settings h
      obtain ⟨events, hrun⟩ := hyields.exists_outcome
      rw [hrun]
      exact ⟨h, rfl⟩

/-- A log and a summary of it. -/
def FileTree.summarized : FileTree :=
  ⟨[(["run.log".toList], Text.bytesOfText "CILKPUB_DATA_POINT, 1, 2, fib, [in], [a]\n"),
    (["avg_run.log".toList], Text.bytesOfText "CILKPUB_DATA_POINT, 4, 8, sort, [], []\n")]⟩

/-- A report in place of its own log, a summary in place of its own log, and a log that is missing
when the other one has been read. -/
theorem files_of_outcome_summarized
    : (∃ comparison events after,
        (diff ⟨"run.log"⟩ none ⟨"run.log"⟩ .standard {} : Command (StateM FileTree) _).outcome.run
            .summarized =
          ((.ok comparison, events), after)
        ∧ comparison.baseline.keys = [⟨"fib", "in", 2⟩]
        ∧ comparison.new = comparison.baseline
        ∧ FileTree.summarized.Updates ⟨"run.log"⟩ (Text.bytesOfText comparison.report.text) after)
      ∧ (∃ summary events after,
          (summarize ⟨"avg_run.log"⟩ ⟨"./run.log"⟩ .avg .json {}
                : Command (StateM FileTree) _).outcome.run .summarized =
            ((.ok summary, events), after)
          ∧ summary.set.keys = [⟨"sort", "", 8⟩]
          ∧ FileTree.summarized.Updates ⟨"./avg_run.log"⟩
              (Text.bytesOfText (summary.set.toJson.indented 0)) after)
      ∧ ∃ failure events,
          (diff ⟨"run.log"⟩ (some ⟨"gone.log"⟩) ⟨"run.log"⟩ .standard {}
                : Command (StateM FileTree) _).outcome.run .summarized =
            ((.error failure, events), .summarized) := by
  obtain ⟨hsummaries, hcomparisons⟩ := files_of_outcome .summarized
  refine ⟨?_, ?_, ?_⟩
  · have h := hcomparisons ⟨"run.log"⟩ none ⟨"run.log"⟩ .standard {}
    have hkeys
        : ((diff ⟨"run.log"⟩ none ⟨"run.log"⟩ .standard {}
              : Command (StateM FileTree) _).outcome.run .summarized).1.1.toOption.map
            (·.baseline.keys) = some [⟨"fib", "in", 2⟩] := by
      decide +kernel
    obtain ⟨comparison, events, after, hrun, hkeys⟩ := Command.exists_of_toOption_map hkeys
    rw [hrun] at h
    obtain ⟨-, -, hself, -, -, hupdates⟩ := h
    exact ⟨comparison, events, after, hrun, hkeys, hself rfl, hupdates⟩
  · have h := hsummaries ⟨"avg_run.log"⟩ ⟨"./run.log"⟩ .avg .json {}
    have hkeys
        : ((summarize ⟨"avg_run.log"⟩ ⟨"./run.log"⟩ .avg .json {}
              : Command (StateM FileTree) _).outcome.run .summarized).1.1.toOption.map
            (·.set.keys) = some [⟨"sort", "", 8⟩] := by
      decide +kernel
    have hpath : Mode.avg.path ⟨"./run.log"⟩ = ⟨"./avg_run.log"⟩ := by decide +kernel
    obtain ⟨summary, events, after, hrun, hkeys⟩ := Command.exists_of_toOption_map hkeys
    rw [hrun, hpath] at h
    obtain ⟨-, -, -, hupdates⟩ := h
    exact ⟨summary, events, after, hrun, hkeys, hupdates⟩
  · have h := hcomparisons ⟨"run.log"⟩ (some ⟨"gone.log"⟩) ⟨"run.log"⟩ .standard {}
    have hgone : ¬ FileTree.summarized.Readable ⟨"gone.log"⟩ := by
      rintro ⟨bytes, hread⟩
      have hnone : (FileTree.summarized.read ⟨"gone.log"⟩).toOption = none := by decide +kernel
      rw [hread] at hnone
      cases hnone
    rcases hrun : (diff ⟨"run.log"⟩ (some ⟨"gone.log"⟩) ⟨"run.log"⟩ .standard {}
        : Command (StateM FileTree) _).outcome.run .summarized with
      ⟨⟨failure | comparison, events⟩, after⟩
    · rw [hrun] at h
      obtain ⟨-, hafter⟩ := h
      exact ⟨failure, events, congrArg _ hafter⟩
    · rw [hrun] at h
      obtain ⟨-, -, -, hnew, -, -⟩ := h
      obtain ⟨bytes, hread, -⟩ := hnew _ rfl
      exact absurd ⟨bytes, hread⟩ hgone

end BenchLog
