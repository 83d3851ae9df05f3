import BenchLog.Proofs.DataSet.Built
import BenchLog.Proofs.DataSet.Concatenation
import BenchLog.Proofs.Report.Shared

/-! One data set merged into another.
The result has the keys of both. The two points of a shared key are merged and all others stay as
they are, and what is reported are differing descriptions and, under the warning policy, the shared
keys in their order.
-/

namespace BenchLog.DataSet

open Report

variable {P : Point → Prop} {policy : Policy} {set other : DataSet}

-----------------------------------------------------------------------------------------
-- Keys
-----------------------------------------------------------------------------------------

theorem Sound.size_eq_card (h : set.Sound P)
    : set.size = set.keys.toFinset.card := by
  rw [keys, List.toFinset_card_of_nodup h.ascending.nodup_keys, KeyMap.keys, List.length_map, size]

theorem Sound.mem_keys_merge (h : set.Sound P) (hother : other.Sound P) (keeps : Keeps P policy)
    {k : Key}
    : k ∈ (set.merge policy other).value.keys ↔ k ∈ set.keys ∨ k ∈ other.keys := by
  have hget := h.get?_merge hother keeps k
  rw [get?, get?, get?] at hget
  rw [keys, keys, keys, KeyMap.mem_keys_iff, KeyMap.mem_keys_iff, KeyMap.mem_keys_iff, hget]
  cases set.points.get? k <;> cases other.points.get? k <;> simp

/-- As many keys are left as are distinct among those of both sets. -/
theorem Sound.size_merge (h : set.Sound P) (hother : other.Sound P) (keeps : Keeps P policy)
    : (set.merge policy other).value.size = (set.keys.toFinset ∪ other.keys.toFinset).card := by
  rw [(h.merge hother keeps).size_eq_card]
  congr 1
  ext k
  rw [List.mem_toFinset, Finset.mem_union, List.mem_toFinset, List.mem_toFinset]
  exact h.mem_keys_merge hother keeps

-----------------------------------------------------------------------------------------
-- Reports
-----------------------------------------------------------------------------------------

/-- What is reported when a data set is merged into one with another description. -/
def mismatch (ours theirs : String) : List Diagnostic :=
  if ours = theirs then [] else [.descriptionMismatch ours theirs]

/-- What is reported of a point for the one that is found under its key. -/
def repeated? (policy : Policy) (found : Option Point) (p : Point) : Option Diagnostic :=
  if policy = .warn then found.map (·.duplicate p) else none

theorem Sound.diagnostics_mergeAt (h : set.Sound P) {k : Key} {p : Point} (hkey : p.key = k)
    : (set.mergeAt policy k p).diagnostics = (repeated? policy (set.get? k) p).toList := by
  cases hget : set.get? k with
  | none =>
      rw [mergeAt_of_get?_eq_none hget, repeated?, Option.map_none, ite_self]
      rfl
  | some existing =>
      have hfound : set.points.get? k = some existing := hget
      have hsame : existing.key = p.key := (h.keyed (KeyMap.mem_of_get? hfound)).trans hkey.symm
      rw [DataSet.mergeAt, hfound]
      dsimp only
      rw [Journal.diagnostics_bind, Journal.diagnostics_pure, List.append_nil,
        Point.diagnostics_merge hsame, repeated?]
      split <;> rfl

/-- Entries are reported for what the data set had under their keys before, since each of them
changes the value under its own key alone; by induction along them. -/
theorem Sound.diagnostics_mergeEntries (h : set.Sound P) (keeps : Keeps P policy)
    {entries : KeyMap Point} (ascending : entries.Ascending)
    (hentries : ∀ {k p}, (k, p) ∈ entries → p.key = k ∧ P p)
    : (set.mergeEntries policy entries).diagnostics =
        entries.filterMap fun (k, p) => repeated? policy (set.get? k) p := by
  induction entries generalizing set with
  | nil => rfl
  | cons entry entries ih =>
      obtain ⟨l, q⟩ := entry
      obtain ⟨hl, hrest⟩ := KeyMap.ascending_cons.mp ascending
      obtain ⟨hkey, hq⟩ := hentries List.mem_cons_self
      have hnext := ih (h.mergeAt keeps hkey hq) hrest
        fun hmem => hentries (List.mem_cons_of_mem _ hmem)
      have hsame
          : entries.filterMap
                (fun (k, p) => repeated? policy ((set.mergeAt policy l q).value.get? k) p) =
              entries.filterMap fun (k, p) => repeated? policy (set.get? k) p := by
        apply List.filterMap_congr
        rintro ⟨k, p⟩ hmem
        have hne : l ≠ k := Key.ne_of_compare_lt (hl k (List.mem_map_of_mem hmem))
        dsimp only
        rw [h.get?_mergeAt hkey, if_neg hne]
      rw [DataSet.mergeEntries, Journal.diagnostics_bind, h.diagnostics_mergeAt hkey, hnext, hsame,
        List.filterMap_cons]
      dsimp only
      cases repeated? policy (set.get? l) q <;> rfl

/-- Differing descriptions are reported first and the shared keys then. -/
theorem Sound.diagnostics_merge (h : set.Sound P) (hother : other.Sound P)
    (keeps : Keeps P policy)
    : (set.merge policy other).diagnostics =
        mismatch set.description other.description
          ++ if policy = .warn then (shared set other).map fun (_, p, q) => p.duplicate q else [] := by
  have hentries := h.diagnostics_mergeEntries keeps hother.ascending
    fun hmem => ⟨hother.keyed hmem, hother.all hmem⟩
  have hshared
      : other.points.filterMap (fun (k, q) => repeated? policy (set.get? k) q) =
          if policy = .warn then (shared set other).map fun (_, p, q) => p.duplicate q else [] := by
    split
    · next hwarn =>
        rw [shared, List.map_filterMap]
        apply List.filterMap_congr
        rintro ⟨k, q⟩ -
        dsimp only
        rw [repeated?, if_pos hwarn, Option.map_map]
        rfl
    · next hwarn =>
        rw [List.filterMap_eq_nil_iff]
        rintro ⟨k, q⟩ -
        exact if_neg hwarn
  rw [← hshared, ← hentries]
  unfold DataSet.merge mismatch
  by_cases hsame : set.description = other.description
  · rw [if_neg (not_not.mpr hsame), if_pos hsame]
    rfl
  · rw [if_pos hsame, if_neg hsame]
    rfl

/-- Unless the policy warns, only differing descriptions are reported. -/
theorem Sound.diagnostics_merge_of_ne_warn (h : set.Sound P) (hother : other.Sound P)
    (keeps : Keeps P policy) (hpolicy : policy ≠ .warn)
    : (set.merge policy other).diagnostics = mismatch set.description other.description := by
  rw [h.diagnostics_merge hother keeps, if_neg hpolicy, List.append_nil]

-----------------------------------------------------------------------------------------
-- The union
-----------------------------------------------------------------------------------------

/-- A data set merged into another leaves the description and gives the union of both by key. What
is reported is that the descriptions differ and, under the warning policy, every shared key once
and in ascending order. -/
theorem Built.merge_union (hset : set.Built) (hother : other.Built) (policy : Policy)
    : let merged := set.merge policy other
      merged.value.description = set.description
      ∧ (∀ k p q, set.get? k = some p → other.get? k = some q →
          merged.value.get? k = some (p.merge policy q).value)
      ∧ (∀ k, other.get? k = none → merged.value.get? k = set.get? k)
      ∧ (∀ k, set.get? k = none → merged.value.get? k = other.get? k)
      ∧ merged.value.size = (set.keys.toFinset ∪ other.keys.toFinset).card
      ∧ (shared set other).Ascending
      ∧ (∀ k p q, (shared set other).get? k = some (p, q) ↔
          set.get? k = some p ∧ other.get? k = some q)
      ∧ merged.diagnostics =
          (if set.description = other.description then []
            else [.descriptionMismatch set.description other.description])
            ++ if policy = .warn then
                (shared set other).map fun (k, p, q) =>
                  .duplicatePoint k.label p.describe q.describe
              else [] := by
  intro merged
  have h := hset.sound
  have hright := hother.sound
  have keeps : Keeps NamedBuilt policy := keeps_namedBuilt policy
  have hget := h.get?_merge hright keeps
  refine ⟨description_merge, fun k p q hp hq => ?_, fun k hk => ?_, fun k hk => ?_,
    h.size_merge hright keeps, ascending_shared hright.ascending, fun k p q => ?_, ?_⟩
  · have hsame : p.key = q.key :=
      (h.keyed (KeyMap.mem_of_get? hp)).trans (hright.keyed (KeyMap.mem_of_get? hq)).symm
    rw [hget, hp, hq, Option.merge_some_some, Point.value_merge hsame]
  · rw [hget, hk, Option.merge_none_right]
  · rw [hget, hk, Option.merge_none_left]
  · rw [get?_shared]
    cases set.get? k <;> cases other.get? k <;> simp
  · have hlabel
        : (shared set other).map (fun (_, p, q) => p.duplicate q) =
            (shared set other).map fun (k, p, q) =>
              .duplicatePoint k.label p.describe q.describe := by
      apply List.map_congr_left
      rintro ⟨k, p, q⟩ hmem
      have hfound := (ascending_shared hright.ascending).get?_of_mem hmem
      rw [get?_shared] at hfound
      obtain ⟨p', hp, hq⟩ := Option.bind_eq_some_iff.mp hfound
      obtain ⟨q', -, hpair⟩ := Option.map_eq_some_iff.mp hq
      cases hpair
      rw [← h.keyed (KeyMap.mem_of_get? hp)]
      rfl
    rw [← hlabel]
    exact h.diagnostics_merge hright keeps

/-- Two runs with one experiment in common and one that each of them has alone. -/
def leftRun : DataSet :=
  (ofPoints "left" .sum [.single "fib" 2 1 "in" "x", .single "ack" 4 2 "" "y"]).value

def rightRun : DataSet :=
  (ofPoints "right" .sum [.single "sort" 8 3 "" "z", .single "fib" 2 5 "in" "w"]).value

/-- Of the shared key the first point stays, with the extremes of both. -/
theorem merge_union_rightRun
    : let merged := leftRun.merge .warn rightRun
      leftRun.Built
      ∧ rightRun.Built
      ∧ merged.value.size = 3
      ∧ (merged.value.get? ⟨"fib", "in", 2⟩).map (fun p => (p.time, p.maxTime, p.outputData)) =
          some (1, 5, "x")
      ∧ merged.value.get? ⟨"sort", "", 8⟩ = rightRun.get? ⟨"sort", "", 8⟩
      ∧ merged.diagnostics.map (·.message) =
          ["merging data set \"right\" into data set \"left\"",
            "duplicate data point fib, in, 02: existing = fib, 2, 1.000000, in, x, 1"
              ++ ", new = fib, 2, 5.000000, in, w, 1"] := by
  intro merged
  have hleft : leftRun.Built := by
    refine built_ofPoints _ _ ?_
    simp only [List.forall_mem_cons, List.not_mem_nil, false_imp_iff, implies_true, and_true]
    exact ⟨.ofCount .., .ofCount ..⟩
  have hright : rightRun.Built := by
    refine built_ofPoints _ _ ?_
    simp only [List.forall_mem_cons, List.not_mem_nil, false_imp_iff, implies_true, and_true]
    exact ⟨.ofCount .., .ofCount ..⟩
  obtain ⟨-, -, -, hnew, hsize, -, -, hdiagnostics⟩ := hleft.merge_union hright .warn
  refine ⟨hleft, hright, hsize.trans (by decide +kernel), by decide +kernel,
    hnew _ (by decide +kernel), ?_⟩
  rw [hdiagnostics]
  decide +kernel

end BenchLog.DataSet
