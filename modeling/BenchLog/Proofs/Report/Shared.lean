import BenchLog.DataSet
import BenchLog.Proofs.KeyMap

/-! The keys that two data sets share.
They stand in the order of one of the sets, each with the points of both, and are the same ones with
the sets exchanged.
-/

namespace BenchLog.Report

/-- The keys that two data sets share, each with its two points. -/
def shared (baseline new : DataSet) : KeyMap (Point × Point) :=
  new.points.filterMap fun (k, q) => (baseline.get? k).map fun p => (k, p, q)

variable {baseline new : DataSet}

/-- A shared key is found in both sets, by induction along the newer one. -/
theorem get?_shared (k : Key)
    : (shared baseline new).get? k =
        (baseline.get? k).bind fun p => (new.get? k).map fun q => (p, q) := by
  obtain ⟨description, points⟩ := new
  change KeyMap.get? k (points.filterMap _) =
    (baseline.get? k).bind fun p => (KeyMap.get? k points).map fun q => (p, q)
  induction points with
  | nil => cases baseline.get? k <;> rfl
  | cons entry points ih =>
      obtain ⟨l, q⟩ := entry
      rw [List.filterMap_cons, KeyMap.get?]
      dsimp only
      cases hl : baseline.get? l with
      | none =>
          -- what is dropped is under a key that the baseline lacks, so that nothing is shared there
          simp only [Option.map_none]
          rw [ih]
          split
          · next heq =>
              subst heq
              rw [hl]
              rfl
          · rfl
      | some p =>
          simp only [Option.map_some, KeyMap.get?]
          split
          · next heq =>
              subst heq
              rw [hl]
              rfl
          · rw [ih]

theorem keys_shared
    : (shared baseline new).keys = new.keys.filter fun k => (baseline.get? k).isSome := by
  obtain ⟨description, points⟩ := new
  change KeyMap.keys (points.filterMap _) = (KeyMap.keys points).filter _
  induction points with
  | nil => rfl
  | cons entry points ih =>
      obtain ⟨k, q⟩ := entry
      rw [List.filterMap_cons]
      dsimp only
      cases hk : baseline.get? k with
      | none => simpa [KeyMap.keys, hk] using ih
      | some p => simpa [KeyMap.keys, hk] using ih

theorem ascending_shared (h : new.points.Ascending)
    : (shared baseline new).Ascending := by
  rw [KeyMap.Ascending, keys_shared]
  exact h.filter _

/-- The other way round the same keys are shared, with their points exchanged. -/
theorem shared_swap (hbaseline : baseline.points.Ascending) (hnew : new.points.Ascending)
    : shared new baseline = (shared baseline new).mapValues Prod.swap := by
  apply (ascending_shared hbaseline).ext ((ascending_shared hnew).mapValues _)
  intro k
  rw [KeyMap.get?_mapValues, get?_shared, get?_shared]
  cases baseline.get? k <;> cases new.get? k <;> rfl

end BenchLog.Report
