import BenchLog.Comparison
import BenchLog.FileTree
import Mathlib.Control.Lawful

/-! What the parts of a command leave behind.
Every part adds to the log that it is given, and fails or gives a result; the files are read and
written in the monad below.
-/

namespace BenchLog

variable {m : Type → Type} [Monad m] [LawfulMonad m]

namespace Command

theorem run_log (events earlier : List Event)
    : (ExceptT.run (log events : Command m Unit)).run earlier =
        (pure (.ok (), earlier ++ events) : m (Except Failure Unit × List Event)) := by
  have hlift
      : (ExceptT.run (log events : Command m Unit)).run earlier =
          StateT.run (Except.ok <$> (modify (· ++ events) : StateT (List Event) m Unit)) earlier :=
    rfl
  rw [hlift, StateT.run_map, StateT.run_modify, map_pure]

/-- A computation with a journal gives its result with the anomalies, and its log is added. -/
theorem run_journal {α : Type} (x : Journal α) (earlier : List Event)
    : (ExceptT.run (journal x : Command m (α × List Diagnostic))).run earlier =
        (pure (.ok (x.value, x.diagnostics), earlier ++ x.events) : m _) := by
  rw [journal, ExceptT.run_bind, StateT.run_bind, run_log, pure_bind]
  rfl

/-- An access to a file logs nothing. -/
theorem run_access {α : Type} (failure : FileError → Failure) (x : m (Except FileError α))
    (earlier : List Event)
    : (ExceptT.run (access failure x : Command m α)).run earlier =
        (do return ((← x).mapError failure, earlier) : m _) := by
  have hlift
      : (monadLift (x : StateT (List Event) m (Except FileError α))
            : StateT (List Event) m (Except FileError α)).run earlier =
          (do return (← x, earlier)) :=
    rfl
  unfold access
  simp only [ExceptT.run_bind, ExceptT.run_monadLift, bind_map_left, StateT.run_bind]
  rw [hlift, bind_assoc]
  apply bind_congr
  intro found
  rw [pure_bind]
  cases found <;> rfl

/-- A file that can be read is read, and without one nothing is logged. -/
theorem outcome_load {α : Type} [Disk m] (failure : FileError → Failure) (path : Path)
    (read : List UInt8 → Journal α) (done : α → Event)
    : (load failure path read done : Command m (α × List Diagnostic)).outcome = do
        match ← (Disk.read path : m (Except FileError (List UInt8))) with
        | .ok bytes =>
            let found := read bytes
            return (.ok (found.value, found.diagnostics), found.events ++ [done found.value])
        | .error e => return (.error (failure e), []) := by
  rw [load, outcome, ExceptT.run_bind, StateT.run_bind, run_access, bind_assoc]
  apply bind_congr
  intro found
  rw [pure_bind]
  cases found with
  | ok bytes =>
      have hbytes
          : (Except.ok bytes : Except FileError (List UInt8)).mapError failure = .ok bytes :=
        rfl
      simp only [hbytes]
      rw [ExceptT.run_bind, StateT.run_bind, run_journal, pure_bind]
      simp only
      rw [ExceptT.run_bind, StateT.run_bind, run_log, pure_bind]
      rfl
  | error e => rfl

end Command

/-- A log that can be read from a tree of files is read, and the tree stays as it is. -/
theorem run_loadFiltered {tree : FileTree} {path : Path} {bytes : List UInt8}
    (h : tree.read path = .ok bytes) (settings : ParseSettings)
    : let set := Log.readGroups settings path (Text.textOfBytes bytes)
      (loadFiltered settings path : Command (StateM FileTree) _).outcome.run tree =
        ((.ok (set.value, set.diagnostics), set.events ++ [.loadedSet path.text set.value.size]),
          tree) := by
  have hread : (Disk.read path : StateM FileTree _).run tree = (.ok bytes, tree) := by
    rw [← h]
    rfl
  intro set
  rw [loadFiltered, Command.outcome_load, StateT.run_bind, hread]
  rfl

end BenchLog
