import BenchLog.Proofs.Command

/-! Commands on files in a state, part by part.
A property of a result and of the events logged for it is established along the parts of a command,
whatever the files are and however they are read and written.
-/

namespace BenchLog

variable {σ α β : Type}

namespace Command

/-- What becomes of a log and of the state of the files. -/
def exec (command : Command (StateM σ) α) (earlier : List Event) (disk : σ)
    : (Except Failure α × List Event) × σ :=
  ((ExceptT.run command).run earlier).run disk

theorem exec_bind (command : Command (StateM σ) α) (next : α → Command (StateM σ) β)
    (earlier : List Event) (disk : σ)
    : exec (command >>= next) earlier disk =
        match exec command earlier disk with
        | ((.ok a, middle), between) => exec (next a) middle between
        | ((.error e, middle), between) => ((.error e, middle), between) := by
  rw [exec, ExceptT.run_bind, StateT.run_bind, StateT.run_bind, exec]
  rcases ((ExceptT.run command).run earlier).run disk with ⟨⟨_ | a, middle⟩, between⟩ <;> rfl

/-- A sequence of two commands gives a result only if both do. -/
theorem exec_bind_eq_ok {command : Command (StateM σ) α} {next : α → Command (StateM σ) β}
    {earlier events : List Event} {disk after : σ} {b : β}
    (h : exec (command >>= next) earlier disk = ((.ok b, events), after))
    : ∃ a middle between,
        exec command earlier disk = ((.ok a, middle), between)
        ∧ exec (next a) middle between = ((.ok b, events), after) := by
  rw [exec_bind] at h
  split at h
  · next a middle between hcommand => exact ⟨a, middle, between, hcommand, h⟩
  · cases h

/-- Whenever the command gives a result, the result and what was logged for it have the property. -/
def Ensures (command : Command (StateM σ) α) (Q : α → List Event → Prop) : Prop :=
  ∀ earlier disk a events after, exec command earlier disk = ((.ok a, events), after) →
    ∃ logged, events = earlier ++ logged ∧ Q a logged

namespace Ensures

variable {P R : α → List Event → Prop} {Q : β → List Event → Prop}

theorem mono {command : Command (StateM σ) α} (h : Ensures command P)
    (hPR : ∀ a logged, P a logged → R a logged)
    : Ensures command R := by
  intro earlier disk a events after hrun
  obtain ⟨logged, hevents, ha⟩ := h _ _ _ _ _ hrun
  exact ⟨logged, hevents, hPR a logged ha⟩

theorem pure (a : α)
    : Ensures (Pure.pure a : Command (StateM σ) α) fun b logged => b = a ∧ logged = [] := by
  intro earlier disk b events after hrun
  cases hrun
  exact ⟨[], (List.append_nil _).symm, rfl, rfl⟩

/-- What the first command logs stands before what the second one does. -/
theorem bind {command : Command (StateM σ) α} {next : α → Command (StateM σ) β}
    (hcommand : Ensures command P)
    (hnext : ∀ a logged, P a logged → Ensures (next a) fun b more => Q b (logged ++ more))
    : Ensures (command >>= next) Q := by
  intro earlier disk b events after hrun
  obtain ⟨a, middle, between, hfirst, hsecond⟩ := exec_bind_eq_ok hrun
  obtain ⟨logged, rfl, ha⟩ := hcommand _ _ _ _ _ hfirst
  obtain ⟨more, rfl, hb⟩ := hnext a logged ha _ _ _ _ _ hsecond
  exact ⟨logged ++ more, List.append_assoc _ _ _, hb⟩

theorem log (events : List Event)
    : Ensures (Command.log events : Command (StateM σ) Unit) fun _ logged => logged = events := by
  intro earlier disk a found after hrun
  rw [exec, run_log] at hrun
  cases hrun
  exact ⟨events, rfl, rfl⟩

/-- A property that some events do not touch holds whether they are logged first or not. -/
theorem log_if {c : Prop} [Decidable c] {events : List Event}
    {next : Unit → Command (StateM σ) α} (hevents : ∀ a logged, P a logged → P a (events ++ logged))
    (h : Ensures (next ()) P)
    : Ensures (if c then Command.log events >>= next else next ()) P := by
  split
  · refine .bind (.log events) ?_
    rintro _ _ rfl
    exact h.mono hevents
  · exact h

theorem journal (x : Journal α)
    : Ensures (Command.journal x : Command (StateM σ) _) fun a logged =>
        a = (x.value, x.diagnostics) ∧ logged = x.events := by
  intro earlier disk a found after hrun
  rw [exec, run_journal] at hrun
  cases hrun
  exact ⟨x.events, rfl, rfl, rfl⟩

theorem access (failure : FileError → Failure) (x : StateM σ (Except FileError α))
    : Ensures (Command.access failure x) fun _ logged => logged = [] := by
  intro earlier disk a found after hrun
  rw [exec, run_access, StateT.run_bind] at hrun
  injection congrArg Prod.fst hrun with ha hfound
  exact ⟨[], by rw [List.append_nil, hfound], rfl⟩

end Ensures

end Command

end BenchLog
