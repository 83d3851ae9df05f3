import BenchLog.Proofs.DataSet.Concatenation

/-! Data sets as folds.
However the points of different keys alternate, each key has what its own points merge into one
after the other, and each point is reported for what came before it.
-/

namespace BenchLog

-----------------------------------------------------------------------------------------
-- Points of one key
-----------------------------------------------------------------------------------------

namespace Point

variable {policy : Policy}

/-- What points merge into, put into the first of them one after the other. -/
def mergeAll (policy : Policy) : List Point → Option Point
  | [] => none
  | p :: points => some (points.foldlM (merge policy) p).value

/-- Points of one key merge into what the policy makes of them, by induction along their list. -/
theorem value_foldlM_merge {p : Point} {points : List Point} (h : ∀ q ∈ points, q.key = p.key)
    : (points.foldlM (merge policy) p).value = points.foldl (absorb policy) p := by
  induction points generalizing p with
  | nil => rfl
  | cons q points ih =>
      obtain ⟨hq, hpoints⟩ := List.forall_mem_cons.mp h
      rw [List.foldlM_cons, Journal.value_bind, value_merge hq.symm, List.foldl_cons]
      exact ih fun r hr => (hpoints r hr).trans (key_absorb policy p q).symm

/-- Under the warning policy the first point is described as it was. -/
theorem duplicate_foldl_absorb (p q : Point) (points : List Point)
    : (points.foldl (absorb .warn) p).duplicate q = p.duplicate q := by
  induction points generalizing p with
  | nil => rfl
  | cons r points ih => exact ih (p.absorb .warn r)

end Point

namespace DataSet

variable {policy : Policy} {k : Key} {points : List Point} {p : Point}

theorem absorbAll_under (policy : Policy) (k : Key) (points : List Point)
    : absorbAll policy none (under k points) = Point.mergeAll policy (under k points) := by
  have hkeys : ∀ p ∈ under k points, p.key = k := fun p hp => (mem_under_iff.mp hp).2.2
  cases hunder : under k points with
  | nil => rfl
  | cons p rest =>
      rw [hunder] at hkeys
      obtain ⟨hp, hrest⟩ := List.forall_mem_cons.mp hkeys
      rw [Point.mergeAll, Point.value_foldlM_merge fun q hq => (hrest q hq).trans hp.symm]
      exact absorbAll_some

/-- Points of different keys may change places. -/
theorem under_swap {q : Point} (h : p.key ≠ q.key) (k : Key) (before after : List Point)
    : under k (before ++ p :: q :: after) = under k (before ++ q :: p :: after) := by
  have hpair : under k [p, q] = under k [q, p] := by
    unfold under
    by_cases hp : p.key = k
    · have hq : q.key ≠ k := fun hq => h (hp.trans hq.symm)
      simp [List.filter_cons, hq]
    · simp [List.filter_cons, hp]
  have hsplit : ∀ r t : Point,
      under k (before ++ r :: t :: after) = under k before ++ (under k [r, t] ++ under k after) :=
    fun r t => by rw [← under_append, ← under_append]; rfl
  rw [hsplit, hsplit, hpair]

-----------------------------------------------------------------------------------------
-- Reports
-----------------------------------------------------------------------------------------

/-- The report of a point that is put in after others: that it has no benchmark, or under the
warning policy that there was a point with its key. -/
def report? (policy : Policy) (earlier : List Point) (p : Point) : Option Diagnostic :=
  if p.isValid then
    if policy = .warn then (under p.key earlier).head?.map (·.duplicate p) else none
  else some (.invalidPoint p.describe)

/-- The data set holds under every key what points that were put in have merged into. -/
structure Gathers (policy : Policy) (earlier : List Point) (set : DataSet) : Prop where
  sound : set.Sound fun _ => True
  get?_eq : ∀ k, set.get? k = absorbAll policy none (under k earlier)

section

variable {set : DataSet} {earlier : List Point}

theorem Gathers.insertAll (h : set.Gathers policy earlier) (points : List Point)
    : (set.insertAll policy points).value.Gathers policy (earlier ++ points) := by
  have keeps : Keeps (fun _ => True) policy := fun _ _ _ => trivial
  refine ⟨h.sound.insertAll keeps fun _ _ _ => trivial, fun k => ?_⟩
  rw [h.sound.get?_insertAll keeps (fun _ _ _ => trivial), h.get?_eq, under_append]
  exact List.foldl_append.symm

theorem Gathers.insert (h : set.Gathers policy earlier) (p : Point)
    : (set.insert policy p).value.Gathers policy (earlier ++ [p]) :=
  h.insertAll [p]

theorem gathers_empty (description : String)
    : (empty description).Gathers policy [] :=
  ⟨sound_empty description, fun _ => rfl⟩

theorem gathers_ofPoints (description : String)
    : (ofPoints description policy points).value.Gathers policy points :=
  (gathers_empty description).insertAll points

/-- What earlier points have merged into is settled by the points of each key. -/
theorem Gathers.ext {other : DataSet} {others : List Point} (h : set.Gathers policy earlier)
    (hother : other.Gathers policy others) (hdescription : set.description = other.description)
    (hunder : ∀ k, under k earlier = under k others)
    : set = other := by
  apply eq_of_parts hdescription
  apply h.sound.ascending.ext hother.sound.ascending
  intro k
  exact (h.get?_eq k).trans ((congrArg _ (hunder k)).trans (hother.get?_eq k).symm)

theorem Gathers.diagnostics_insert (h : set.Gathers policy earlier) (p : Point)
    : (set.insert policy p).diagnostics = (report? policy earlier p).toList := by
  have hget := h.get?_eq p.key
  by_cases hvalid : p.isValid = true
  · rw [insert_of_isValid hvalid, report?, if_pos hvalid]
    cases hunder : under p.key earlier with
    | nil =>
        rw [hunder] at hget
        rw [mergeAt_of_get?_eq_none hget]
        split <;> rfl
    | cons first rest =>
        rw [hunder] at hget
        have hfound : set.points.get? p.key = some (rest.foldl (Point.absorb policy) first) :=
          hget.trans absorbAll_some
        have hkey := h.sound.keyed (KeyMap.mem_of_get? hfound)
        rw [mergeAt, hfound]
        simp only [Journal.diagnostics_bind, Journal.diagnostics_pure, List.append_nil]
        rw [Point.diagnostics_merge hkey]
        split
        · next hwarn =>
            subst hwarn
            rw [Point.duplicate_foldl_absorb]
            rfl
        · rfl
  · rw [DataSet.insert, if_neg hvalid, report?, if_neg hvalid]
    rfl

/-- Points put in after others are reported in their order, by induction along their list. -/
theorem Gathers.diagnostics_insertAll (h : set.Gathers policy earlier)
    : (set.insertAll policy points).diagnostics =
        (points.zipIdx earlier.length).filterMap fun (p, i) =>
          report? policy ((earlier ++ points).take i) p := by
  induction points generalizing set earlier with
  | nil => rfl
  | cons p points ih =>
      have hrest := ih (h.insert p)
      rw [List.length_append, List.append_assoc, List.singleton_append] at hrest
      rw [DataSet.insertAll, Journal.diagnostics_bind, hrest, h.diagnostics_insert p,
        List.zipIdx_cons, List.filterMap_cons]
      dsimp only
      rw [List.take_left]
      cases report? policy earlier p <;> rfl

end

-----------------------------------------------------------------------------------------
-- Whole lists
-----------------------------------------------------------------------------------------

/-- A data set has for every key of a point with a benchmark what the points of this key merge into.
What is reported are the points without benchmark and, under the warning policy, those whose key
was there before. Only the order among points of one key matters for the data set. -/
theorem folds_ofPoints (description : String) (policy : Policy) (points : List Point)
    : let built := ofPoints description policy points
      built.value.description = description
      ∧ built.value.points.Ascending
      ∧ (∀ k, k ∈ built.value.keys ↔ ∃ p ∈ points, p.isValid = true ∧ p.key = k)
      ∧ (∀ k, built.value.get? k = Point.mergeAll policy (under k points))
      ∧ built.diagnostics =
          points.zipIdx.filterMap (fun (p, i) => report? policy (points.take i) p)
      ∧ ∀ others, (∀ k, under k others = under k points) →
          (ofPoints description policy others).value = built.value
          ∧ (ofPoints description policy others).value.text = built.value.text := by
  intro built
  have hbuilt : built.value.Gathers policy points := gathers_ofPoints description
  refine ⟨description_insertAll, hbuilt.sound.ascending, fun k => ?_, fun k => ?_,
    (gathers_empty description).diagnostics_insertAll, fun others hunder => ?_⟩
  · have hempty : k ∉ (empty description).keys := List.not_mem_nil
    exact mem_keys_insertAll.trans (or_iff_right hempty)
  · rw [hbuilt.get?_eq, absorbAll_under]
  · have hsame : (ofPoints description policy others).value = built.value :=
      (gathers_ofPoints description).ext hbuilt
        (description_insertAll.trans description_insertAll.symm) hunder
    exact ⟨hsame, congrArg text hsame⟩

/-- A point of a key, one without benchmark and two more. -/
def alternating (p q : Point) : List Point :=
  [.single "fib" 2 1 "in" "a", .single "" 8 1 "" "", p, q]

/-- The points without benchmark and of a former key are reported. Exchanged with the point of
another key, the second of its key is merged into the first one all the same. -/
theorem folds_ofPoints_alternating
    : let sort := Point.single "sort" 4 3 "" ""
      let fib := Point.single "fib" 2 5 "in" "b"
      let built := ofPoints "main" .warn (alternating sort fib)
      built.value.keys = [⟨"fib", "in", 2⟩, ⟨"sort", "", 4⟩]
      ∧ (built.value.get? fib.key).map (fun p => (p.time, p.maxTime, p.outputData)) =
          some (1, 5, "a")
      ∧ built.diagnostics.map (·.message) =
          ["found invalid point: , 8, 1.000000, , , 1",
            "duplicate data point fib, in, 02: existing = fib, 2, 1.000000, in, a, 1"
              ++ ", new = fib, 2, 5.000000, in, b, 1"]
      ∧ (ofPoints "main" .warn (alternating fib sort)).value = built.value := by
  intro sort fib built
  obtain ⟨-, -, -, hget, hdiagnostics, hsame⟩ :=
    folds_ofPoints "main" .warn (alternating sort fib)
  have hne : fib.key ≠ sort.key := by decide +kernel
  have hunder : ∀ k, under k (alternating fib sort) = under k (alternating sort fib) :=
    fun k => under_swap hne k [_, _] []
  refine ⟨by decide +kernel, ?_, ?_, (hsame _ hunder).1⟩
  · rw [hget]
    decide +kernel
  · rw [hdiagnostics]
    decide +kernel

end DataSet

end BenchLog
