import BenchLog.Proofs.DataSet.Built
import BenchLog.Proofs.DataSet.Matching
import BenchLog.Proofs.Point.Association

/-! Runs of operations on any number of named data sets.
Every step keeps each data set sound, whatever property of points its own points have and merging
and averaging keep, and in sound data sets a point only ever meets points of its own key.
-/

namespace BenchLog

open DataSet

-----------------------------------------------------------------------------------------
-- Data sets by name and what is done to them
-----------------------------------------------------------------------------------------

/-- Data sets by name. -/
abbrev Workspace : Type :=
  String → Option DataSet

namespace Workspace

def empty : Workspace :=
  fun _ => none

def put (name : String) (set : DataSet) (w : Workspace) : Workspace :=
  fun other => if other = name then some set else w other

/-- The data set of a name is changed; without one nothing happens. -/
def modify (name : String) (change : DataSet → Journal DataSet) (w : Workspace)
    : Journal Workspace :=
  match w name with
  | none => return w
  | some set => do
      let next ← change set
      return w.put name next

/-- One operation on named data sets. -/
inductive Step where
  | create (name description : String)
  /-- A data set is built from points. -/
  | collect (name description : String) (policy : Policy) (points : List Point)
  /-- A data set is read from the text of a log. -/
  | read (name : String) (options : LogOptions) (text : String)
  | insert (name : String) (policy : Policy) (point : Point)
  | merge (name : String) (policy : Policy) (other : String)
  | average (name : String)
  | trim (name : String)

/-- The points that a step is given, apart from those in a text. -/
def Step.points : Step → List Point
  | .collect _ _ _ points => points
  | .insert _ _ p => [p]
  | _ => []

/-- The points that a step is given and those that it reads from the lines of a text. -/
def Step.observations : Step → List Point
  | .read _ _ text =>
      (Text.lines text).filterMap fun line => (Recognition.ofNamedLine line).point?
  | s => s.points

/-- The policy by which a step merges points of one key. -/
def Step.policy? : Step → Option Policy
  | .collect _ _ policy _ | .insert _ policy _ | .merge _ policy _ => some policy
  | .read _ options _ => some options.policy
  | .create .. | .average _ | .trim _ => none

def step : Step → Workspace → Journal Workspace
  | .create name description, w => return w.put name (.empty description)
  | .collect name description policy points, w => do
      let set ← ofPoints description policy points
      return w.put name set
  | .read name options text, w => do
      let set ← Log.ofText options text
      return w.put name set
  | .insert name policy p, w => w.modify name (DataSet.insert policy p)
  | .merge name policy other, w =>
      match w other with
      | none => return w
      | some right => w.modify name fun set => set.merge policy right
  | .average name, w => w.modify name fun set => return set.averaged
  | .trim name, w => w.modify name fun set => return set.trimmed

def run : List Step → Workspace → Journal Workspace
  | [], w => return w
  | s :: steps, w => do
      let next ← step s w
      run steps next

end Workspace

-----------------------------------------------------------------------------------------
-- What one step preserves
-----------------------------------------------------------------------------------------

/-- The points of a step have the property, and the step makes points with the property of points
with the property. -/
structure Workspace.Step.Preserves (P : Point → Prop) (s : Step) : Prop where
  keeps : ∀ policy ∈ s.policy?, Keeps P policy
  averaged : ∀ p, P p → P p.averaged
  trimmed : ∀ p, P p → P p.trimmed
  observed : ∀ p ∈ s.observations, p.isValid = true → P p

/-- The operations on data sets make points with the property of points with the property. -/
structure Point.Closed (P : Point → Prop) : Prop where
  keeps : ∀ policy, Keeps P policy
  averaged : ∀ p, P p → P p.averaged
  trimmed : ∀ p, P p → P p.trimmed
  read : ∀ line p, (Recognition.ofNamedLine line).point? = some p → P p

theorem Point.Closed.preserves {P : Point → Prop} (closed : Closed P) {s : Workspace.Step}
    (hp : ∀ p ∈ s.points, p.isValid = true → P p)
    : s.Preserves P := by
  refine ⟨fun policy _ => closed.keeps policy, closed.averaged, closed.trimmed, fun p hmem => ?_⟩
  cases s with
  | read name options text =>
      obtain ⟨line, -, hread⟩ := List.mem_filterMap.mp hmem
      exact fun _ => closed.read line p hread
  | _ => exact hp p hmem

namespace Workspace

variable {P : Point → Prop} {w : Workspace}

/-- All data sets are sound and have points with the property. -/
def Holds (P : Point → Prop) (w : Workspace) : Prop :=
  ∀ {name set}, w name = some set → set.Sound P

theorem holds_empty
    : empty.Holds P :=
  fun h => nomatch h

theorem Holds.put (h : w.Holds P) {set : DataSet} (hset : set.Sound P) (name : String)
    : (w.put name set).Holds P := by
  intro other found hfound
  unfold Workspace.put at hfound
  split at hfound
  · cases hfound
    exact hset
  · exact h hfound

theorem Holds.modify (h : w.Holds P) {change : DataSet → Journal DataSet}
    (hchange : ∀ {set : DataSet}, set.Sound P → (change set).value.Sound P) (name : String)
    : (w.modify name change).value.Holds P := by
  unfold Workspace.modify
  split
  · exact h
  · next set hset => exact h.put (hchange (h hset)) name

theorem Holds.matchesKeys_modify (h : w.Holds P) {change : DataSet → Journal DataSet}
    (hchange : ∀ {set : DataSet}, set.Sound P → (change set).MatchesKeys) (name : String)
    : (w.modify name change).MatchesKeys := by
  unfold Workspace.modify
  split
  · exact .pure _
  · next set hset => exact .bind (hchange (h hset)) (.pure _)

/-- One step keeps all data sets sound, by the cases of the step. -/
theorem Holds.step (h : w.Holds P) {s : Step} (hs : s.Preserves P)
    : (step s w).value.Holds P := by
  cases s with
  | create name description => exact h.put (sound_empty description) name
  | collect name description policy points =>
      exact h.put ((sound_empty description).insertAll (hs.keeps policy rfl) hs.observed) name
  | read name options text =>
      refine h.put (Log.sound_ofLines (hs.keeps options.policy rfl) hs.averaged ?_) name
      intro line hline p hread
      exact hs.observed p (List.mem_filterMap.mpr ⟨line, hline, hread⟩)
        (Recognition.point?_ofNamedLine_iff.mp hread).2
  | insert name policy p =>
      exact h.modify
        (fun hset => hset.insert (hs.keeps policy rfl) (hs.observed p List.mem_cons_self)) name
  | merge name policy other =>
      simp only [Workspace.step]
      split
      · exact h
      · next right hright =>
          exact h.modify (fun hset => hset.merge (h hright) (hs.keeps policy rfl)) name
  | average name => exact h.modify (fun hset => hset.averaged hs.averaged) name
  | trim name => exact h.modify (fun hset => hset.trimmed hs.trimmed) name

/-- One step on sound data sets merges no points with different keys. -/
theorem Holds.matchesKeys_step (h : w.Holds P) {s : Step} (hs : s.Preserves P)
    : (Workspace.step s w).MatchesKeys := by
  cases s with
  | create name description => exact .pure _
  | collect name description policy points =>
      have hset : (ofPoints description policy points).MatchesKeys :=
        (sound_empty description).matchesKeys_insertAll (hs.keeps policy rfl) hs.observed
      exact .bind hset (.pure _)
  | read name options text => exact .bind (Log.matchesKeys_ofLines options _) (.pure _)
  | insert name policy p => exact h.matchesKeys_modify (fun hset => hset.matchesKeys_insert p) name
  | merge name policy other =>
      simp only [Workspace.step]
      split
      · exact .pure _
      · next right hright =>
          exact h.matchesKeys_modify
            (fun hset => hset.matchesKeys_merge (h hright) (hs.keeps policy rfl)) name
  | average name => exact h.matchesKeys_modify (fun _ => .pure _) name
  | trim name => exact h.matchesKeys_modify (fun _ => .pure _) name

-----------------------------------------------------------------------------------------
-- What a run preserves
-----------------------------------------------------------------------------------------

/-- A run keeps all data sets sound and merges no points with different keys, by induction along
its steps. -/
theorem Holds.run_of_preserves (h : w.Holds P) {steps : List Step}
    (hs : ∀ s ∈ steps, s.Preserves P)
    : (run steps w).value.Holds P ∧ (Workspace.run steps w).MatchesKeys := by
  induction steps generalizing w with
  | nil => exact ⟨h, .pure _⟩
  | cons s steps ih =>
      obtain ⟨hhead, htail⟩ := List.forall_mem_cons.mp hs
      obtain ⟨hrest, hkeys⟩ := ih (h.step hhead) htail
      exact ⟨hrest, .bind (h.matchesKeys_step hhead) hkeys⟩

theorem Holds.run (h : w.Holds P) (closed : Point.Closed P) {steps : List Step}
    (hp : ∀ s ∈ steps, ∀ p ∈ s.points, p.isValid = true → P p)
    : (run steps w).value.Holds P ∧ (Workspace.run steps w).MatchesKeys :=
  h.run_of_preserves fun s hs => closed.preserves (hp s hs)

end Workspace

-----------------------------------------------------------------------------------------
-- The properties of points
-----------------------------------------------------------------------------------------

namespace Point

theorem closed_namedBuilt
    : Closed NamedBuilt where
  keeps := keeps_namedBuilt
  averaged p hp := ⟨isValid_of_key_eq (key_averaged p).symm hp.1, .averaged hp.2⟩
  trimmed p hp := ⟨isValid_of_key_eq (key_trimmed p).symm hp.1, .trimmed hp.2⟩
  read line p h := by
    obtain ⟨benchmark, processors, time, inputParams, outputData, rfl⟩ :=
      Recognition.exists_single_of_point? h
    exact ⟨(Recognition.point?_ofNamedLine_iff.mp h).2, .ofCount ..⟩

/-- The point stands for an observation at least. -/
def Counted (p : Point) : Prop :=
  1 ≤ p.count

theorem closed_counted
    : Closed Counted where
  keeps policy p q _ hp hq := by
    unfold Counted at hp hq ⊢
    rcases count_absorb policy p q with hc | hc | hc <;> omega
  averaged p hp := by
    have hpos : 0 < p.count := hp
    rw [Counted, averaged, if_pos hpos]
  trimmed p hp := by
    have hpos : 0 < p.count := hp
    rw [Counted, trimmed, if_pos hpos]
  read line p h := by
    obtain ⟨benchmark, processors, time, inputParams, outputData, rfl⟩ :=
      Recognition.exists_single_of_point? h
    exact le_refl 1

end Point

/-- Whatever is done to data sets in whatever order: their keys ascend strictly and so are distinct,
every point stands under its own key and names its benchmark, and its texts are trimmed; points
with counts stay so; and no two points with different keys are ever to be merged. -/
theorem Workspace.run_invariant {steps : List Step}
    (hbuilt : ∀ s ∈ steps, ∀ p ∈ s.points, p.Built)
    : (∀ name set, (run steps empty).value name = some set →
        set.keys.Nodup
        ∧ set.keys.Pairwise (fun k l => k.compare l = .lt)
        ∧ (∀ k p, set.get? k = some p →
            p.key = k ∧ p.benchmark ≠ "" ∧ Text.Trimmed p.benchmark.toList
            ∧ Text.Trimmed p.inputParams.toList ∧ Text.Trimmed p.outputData.toList)
        ∧ ((∀ s ∈ steps, ∀ p ∈ s.points, 1 ≤ p.count) →
            ∀ k p, set.get? k = some p → 1 ≤ p.count))
      ∧ ∀ existing incoming,
          .keyMismatch existing incoming ∉ (run steps empty).diagnostics := by
  obtain ⟨hsound, hkeys⟩ := holds_empty.run Point.closed_namedBuilt
    fun s hs p hp hvalid => ⟨hvalid, hbuilt s hs p hp⟩
  refine ⟨fun name set hset => ?_, hkeys⟩
  have hs := hsound hset
  refine ⟨?_, hs.ascending, fun k p hget => ?_, fun hcount k p hget => ?_⟩
  · exact hs.ascending.imp fun hlt => Key.ne_of_compare_lt hlt
  · have hmem := KeyMap.mem_of_get? hget
    obtain ⟨hvalid, hp⟩ := hs.all hmem
    have htexts := hp.trimmedTexts
    exact ⟨hs.keyed hmem, by simpa [Point.isValid] using hvalid, htexts.benchmark,
      htexts.inputParams, htexts.outputData⟩
  · obtain ⟨hcounted, -⟩ := holds_empty.run Point.closed_counted
      fun s hs p hp _ => hcount s hs p hp
    exact (hcounted hset).all (KeyMap.mem_of_get? hget)

/-- Two data sets with a key in common and one of their own each, one from points and one from a
log; the second is merged into the first. -/
def Workspace.joinedRun : List Step :=
  [.collect "a" "left" .min
      [.single "fib" 2 1 "in" "x", .ofCount " fib" 2 3 "in" "y " 2, .single "ack" 4 1 "" "z"],
    .read "b" ⟨.sum, "right", false, Log.defaultLabels⟩
      "CILKPUB_DATA_POINT, 2, 2, fib, [in], [w]\nCILKPUB_DATA_POINT, 1, 8, fib, [in], [w]\n",
    .insert "a" .max (.single "" 1 1 "in" "no benchmark"),
    .merge "a" .warn "b",
    .trim "a"]

theorem Workspace.run_invariant_joinedRun
    : ∃ set,
        (run joinedRun empty).value "a" = some set
        ∧ set.keys = [⟨"ack", "", 4⟩, ⟨"fib", "in", 2⟩, ⟨"fib", "in", 8⟩]
        ∧ set.keys.Nodup
        ∧ (∀ k p, set.get? k = some p → p.key = k ∧ 1 ≤ p.count)
        ∧ ∀ existing incoming,
            .keyMismatch existing incoming ∉ (run joinedRun empty).diagnostics := by
  have hbuilt : ∀ s ∈ joinedRun, ∀ p ∈ s.points, p.Built := by
    simp only [joinedRun, List.forall_mem_cons, Step.points, List.not_mem_nil, false_imp_iff,
      implies_true, and_true, true_and]
    exact ⟨⟨.ofCount .., .ofCount .., .ofCount ..⟩, .ofCount ..⟩
  have hcount : ∀ s ∈ joinedRun, ∀ p ∈ s.points, 1 ≤ p.count := by decide +kernel
  obtain ⟨hsets, hkeys⟩ := run_invariant hbuilt
  obtain ⟨set, hset⟩ := Option.isSome_iff_exists.mp
    (by decide +kernel : ((run joinedRun empty).value "a").isSome)
  obtain ⟨hnodup, -, hpoints, hcounted⟩ := hsets "a" set hset
  have hkeysOf : ((run joinedRun empty).value "a").map DataSet.keys =
      some [⟨"ack", "", 4⟩, ⟨"fib", "in", 2⟩, ⟨"fib", "in", 8⟩] := by decide +kernel
  rw [hset, Option.map_some, Option.some.injEq] at hkeysOf
  refine ⟨set, hset, hkeysOf, hnodup, fun k p hget => ⟨?_, ?_⟩, hkeys⟩
  · exact (hpoints k p hget).1
  · exact hcounted hcount k p hget

end BenchLog
