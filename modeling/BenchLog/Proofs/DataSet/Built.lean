import BenchLog.Proofs.DataSet.Sound
import BenchLog.Proofs.Point.Built

/-! The data sets that the operations on data sets produce.
-/

namespace BenchLog.DataSet

/-- The data set comes from empty ones by putting in points, merging and averaging. -/
inductive Built : DataSet → Prop
  | empty (description : String) : Built (empty description)
  | insert (policy : Policy) {p : Point} {set : DataSet} (point : p.Built) (built : Built set)
    : Built (set.insert policy p).value
  | merge (policy : Policy) {set other : DataSet} (built : Built set) (right : Built other)
    : Built (set.merge policy other).value
  | averaged {set : DataSet} (built : Built set) : Built set.averaged
  | trimmed {set : DataSet} (built : Built set) : Built set.trimmed

/-- The point has a benchmark and comes from the constructors. -/
def NamedBuilt (p : Point) : Prop :=
  p.isValid = true ∧ p.Built

theorem keeps_namedBuilt (policy : Policy)
    : Keeps NamedBuilt policy := by
  intro p q hkey hp hq
  refine ⟨isValid_of_key_eq (Point.key_absorb policy p q).symm hp.1, ?_⟩
  rw [← Point.value_merge hkey]
  exact .merge policy hp.2 hq.2

/-- Every data set that is built is sound, and all its points are built and named, by induction on
the operations. -/
theorem Built.sound {set : DataSet} (h : set.Built)
    : set.Sound NamedBuilt := by
  induction h with
  | empty description => exact sound_empty description
  | insert policy point _ ih => exact ih.insert (keeps_namedBuilt policy) fun hp => ⟨hp, point⟩
  | merge policy _ _ left right => exact left.merge right (keeps_namedBuilt policy)
  | averaged _ ih =>
      refine ih.averaged fun p hp => ⟨?_, .averaged hp.2⟩
      exact isValid_of_key_eq (Point.key_averaged p).symm hp.1
  | trimmed _ ih =>
      refine ih.trimmed fun p hp => ⟨?_, .trimmed hp.2⟩
      exact isValid_of_key_eq (Point.key_trimmed p).symm hp.1

/-- Points put in one after the other, by induction along their list. -/
theorem Built.insertAll {set : DataSet} (built : set.Built) (policy : Policy) {points : List Point}
    (h : ∀ p ∈ points, p.Built)
    : (set.insertAll policy points).value.Built := by
  induction points generalizing set with
  | nil => exact built
  | cons p points ih =>
      obtain ⟨hp, hrest⟩ := List.forall_mem_cons.mp h
      exact ih (built.insert policy hp) hrest

theorem built_ofPoints (description : String) (policy : Policy) {points : List Point}
    (h : ∀ p ∈ points, p.Built)
    : (ofPoints description policy points).value.Built :=
  Built.insertAll (.empty description) policy h

end BenchLog.DataSet
