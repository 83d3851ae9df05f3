import BenchLog.Event

/-! Computations that keep a journal.
The journal has two columns: the anomalies, which a caller gets beside the result, and the log of
all events. Noting an anomaly writes into both, so that the anomalies of the log are the first
column.
-/

namespace BenchLog

/-- A result, the anomalies met on the way and the log. -/
structure Journal (α : Type) where
  value : α
  diagnostics : List Diagnostic
  events : List Event

namespace Journal

instance : Monad Journal where
  pure value := ⟨value, [], []⟩
  bind x next :=
    let y := next x.value
    ⟨y.value, x.diagnostics ++ y.diagnostics, x.events ++ y.events⟩

/-- An anomaly goes into both columns. -/
def note (d : Diagnostic) : Journal Unit :=
  ⟨(), [d], [.anomaly d]⟩

def note? : Option Diagnostic → Journal Unit
  | some d => note d
  | none => pure ()

/-- An event that is no anomaly goes into the log alone. -/
def trace (e : Event) : Journal Unit :=
  ⟨(), [], [e]⟩

/-- The anomalies become part of the result; the log stays. -/
def gather {α : Type} (x : Journal α) : Journal (α × List Diagnostic) :=
  ⟨(x.value, x.diagnostics), [], x.events⟩

@[simp]
theorem value_pure {α : Type} (a : α)
    : (pure a : Journal α).value = a :=
  rfl

@[simp]
theorem diagnostics_pure {α : Type} (a : α)
    : (pure a : Journal α).diagnostics = [] :=
  rfl

@[simp]
theorem events_pure {α : Type} (a : α)
    : (pure a : Journal α).events = [] :=
  rfl

@[simp]
theorem value_bind {α β : Type} (x : Journal α) (next : α → Journal β)
    : (x >>= next).value = (next x.value).value :=
  rfl

@[simp]
theorem diagnostics_bind {α β : Type} (x : Journal α) (next : α → Journal β)
    : (x >>= next).diagnostics = x.diagnostics ++ (next x.value).diagnostics :=
  rfl

@[simp]
theorem events_bind {α β : Type} (x : Journal α) (next : α → Journal β)
    : (x >>= next).events = x.events ++ (next x.value).events :=
  rfl

theorem diagnostics_note? (d : Option Diagnostic)
    : (note? d).diagnostics = d.toList := by
  cases d with
  | none => rfl
  | some d => rfl

instance : LawfulMonad Journal :=
  LawfulMonad.mk' Journal
    (fun x => by cases x; simp [Functor.map])
    (fun _ _ => by simp [bind, pure])
    (fun _ _ _ => by simp [bind, List.append_assoc])

/-- The result of a computation whose result is changed. -/
@[simp]
theorem value_map {α β : Type} (f : α → β) (x : Journal α)
    : (f <$> x).value = f x.value := by
  rw [map_eq_pure_bind, value_bind, value_pure]

@[simp]
theorem diagnostics_map {α β : Type} (f : α → β) (x : Journal α)
    : (f <$> x).diagnostics = x.diagnostics := by
  rw [map_eq_pure_bind, diagnostics_bind, diagnostics_pure, List.append_nil]

end Journal

end BenchLog
