import BenchLog.Proofs.DataSet.Sound
import BenchLog.Proofs.Point.Association

/-! Data sets that are built from the parts of a list of points and then merged.
Under a key a data set has what the points with that key merge into one after the other, and the
points of two lists merge into the same whether in one row or list by list.
-/

namespace BenchLog.DataSet

variable {P : Point → Prop} {policy : Policy} {set other : DataSet}

-----------------------------------------------------------------------------------------
-- What is found under a key
-----------------------------------------------------------------------------------------

/-- The points with a key that name their benchmark. -/
def under (k : Key) (points : List Point) : List Point :=
  points.filter fun p => p.isValid && decide (p.key = k)

/-- What points merge into one after the other, beginning with the one that is there. -/
def absorbAll (policy : Policy) : Option Point → List Point → Option Point :=
  List.foldl fun found p => found.merge (Point.absorb policy) (some p)

theorem mem_under_iff {k : Key} {points : List Point} {p : Point}
    : p ∈ under k points ↔ p ∈ points ∧ p.isValid = true ∧ p.key = k := by
  simp [under]

theorem under_append (k : Key) (xs ys : List Point)
    : under k (xs ++ ys) = under k xs ++ under k ys :=
  List.filter_append xs ys

theorem absorbAll_some {p : Point} {points : List Point}
    : absorbAll policy (some p) points = some (points.foldl (Point.absorb policy) p) := by
  induction points generalizing p with
  | nil => rfl
  | cons q points ih => exact ih

theorem Sound.get?_mergeAt (h : set.Sound P) {k : Key} {p : Point} (hkey : p.key = k) (l : Key)
    : (set.mergeAt policy k p).value.get? l =
        if k = l then (set.get? l).merge (Point.absorb policy) (some p) else set.get? l := by
  obtain ⟨q, hvalue, hq⟩ := value_mergeAt policy k p set
  rw [hvalue, get?, get?]
  split
  · next heq =>
      subst heq
      rw [KeyMap.get?_put_self]
      rcases hq with ⟨hnone, rfl⟩ | ⟨existing, hsome, rfl⟩
      · rw [hnone, Option.merge_none_left]
      · have hsame : existing.key = p.key :=
          (h.keyed (KeyMap.mem_of_get? hsome)).trans hkey.symm
        rw [hsome, Option.merge_some_some, Point.value_merge hsame]
  · next hne => rw [KeyMap.get?_put_of_ne hne]

/-- The points put in are merged under their keys, by induction along their list. -/
theorem Sound.get?_insertAll (h : set.Sound P) (keeps : Keeps P policy) {points : List Point}
    (hp : ∀ p ∈ points, p.isValid = true → P p) (k : Key)
    : (set.insertAll policy points).value.get? k =
        absorbAll policy (set.get? k) (under k points) := by
  induction points generalizing set with
  | nil => rfl
  | cons p points ih =>
      obtain ⟨hhead, htail⟩ := List.forall_mem_cons.mp hp
      have hnext := ih (h.insert keeps hhead) htail
      rw [DataSet.insertAll, Journal.value_bind, hnext]
      by_cases hvalid : p.isValid = true
      · rw [insert_of_isValid hvalid, h.get?_mergeAt rfl, under, under, List.filter_cons]
        by_cases heq : p.key = k
        · rw [if_pos heq, if_pos (by simp [hvalid, heq])]
          rfl
        · rw [if_neg heq, if_neg (by simp [heq])]
      · rw [value_insert_of_not_isValid hvalid, under, under, List.filter_cons,
          if_neg (by simp [hvalid])]

/-- The entries of another data set are merged under their keys, by induction along them. -/
theorem Sound.get?_mergeEntries (h : set.Sound P) (keeps : Keeps P policy)
    {entries : KeyMap Point} (ascending : entries.Ascending)
    (hentries : ∀ {k p}, (k, p) ∈ entries → p.key = k ∧ P p) (k : Key)
    : (set.mergeEntries policy entries).value.get? k =
        (set.get? k).merge (Point.absorb policy) (entries.get? k) := by
  induction entries generalizing set with
  | nil => rw [KeyMap.get?, Option.merge_none_right]; rfl
  | cons entry entries ih =>
      obtain ⟨l, p⟩ := entry
      obtain ⟨hl, hrest⟩ := KeyMap.ascending_cons.mp ascending
      obtain ⟨hkey, hp⟩ := hentries List.mem_cons_self
      have hnext := ih (h.mergeAt keeps hkey hp) hrest
        fun hmem => hentries (List.mem_cons_of_mem _ hmem)
      rw [DataSet.mergeEntries, Journal.value_bind, hnext, h.get?_mergeAt hkey, KeyMap.get?]
      split
      · next heq =>
          subst heq
          rw [KeyMap.get?_of_forall_lt hl, Option.merge_none_right]
      · rfl

theorem Sound.get?_merge (h : set.Sound P) (hother : other.Sound P) (keeps : Keeps P policy)
    (k : Key)
    : (set.merge policy other).value.get? k =
        (set.get? k).merge (Point.absorb policy) (other.get? k) := by
  have hentries := h.get?_mergeEntries keeps hother.ascending
    (fun hmem => ⟨hother.keyed hmem, hother.all hmem⟩) k
  unfold DataSet.merge
  split
  · exact hentries
  · exact hentries

theorem description_mergeEntries {entries : KeyMap Point}
    : (set.mergeEntries policy entries).value.description = set.description := by
  induction entries generalizing set with
  | nil => rfl
  | cons entry entries ih =>
      obtain ⟨q, hvalue, -⟩ := value_mergeAt policy entry.1 entry.2 set
      rw [mergeEntries, Journal.value_bind, ih, hvalue]

theorem eq_of_parts (hdescription : set.description = other.description)
    (hpoints : set.points = other.points)
    : set = other := by
  cases set
  cases other
  simp_all

theorem description_merge
    : (set.merge policy other).value.description = set.description := by
  unfold DataSet.merge
  split
  · exact description_mergeEntries
  · exact description_mergeEntries

-----------------------------------------------------------------------------------------
-- Points in a row and list by list
-----------------------------------------------------------------------------------------

section

variable {α : Type} {view : Point → α}

/-- What points with a property merge into has it, as far as merging keeps it. -/
theorem absorbAll_all (keeps : ∀ {p q : Point}, P p → P q → P (p.absorb policy q))
    {points : List Point} (hpoints : ∀ p ∈ points, P p) {found : Option Point}
    (hfound : ∀ p ∈ found, P p)
    : ∀ p ∈ absorbAll policy found points, P p := by
  induction points generalizing found with
  | nil => exact hfound
  | cons q points ih =>
      obtain ⟨hq, hrest⟩ := List.forall_mem_cons.mp hpoints
      apply ih hrest
      intro r hr
      cases found with
      | none => exact Option.mem_some_iff.mp hr ▸ hq
      | some p => exact Option.mem_some_iff.mp hr ▸ keeps (hfound p rfl) hq

theorem map_merge_congr
    (congr : ∀ {p q r : Point}, view q = view r →
      view (p.absorb policy q) = view (p.absorb policy r))
    (p : Point) {first second : Option Point} (h : first.map view = second.map view)
    : ((some p).merge (Point.absorb policy) first).map view =
        ((some p).merge (Point.absorb policy) second).map view := by
  cases first with
  | none =>
      cases second with
      | none => rfl
      | some r => cases h
  | some q =>
      cases second with
      | none => cases h
      | some r => exact congrArg some (congr (Option.some.inj h))

/-- In a view in which merging is associative, points merge into the one that is there as what
they merge into by themselves does, by induction along their list. -/
theorem map_absorbAll (keeps : ∀ {p q : Point}, P p → P q → P (p.absorb policy q))
    (assoc : ∀ {p q r : Point}, P p → P q → P r →
      view ((p.absorb policy q).absorb policy r) = view (p.absorb policy (q.absorb policy r)))
    (congr : ∀ {p q r : Point}, view q = view r →
      view (p.absorb policy q) = view (p.absorb policy r))
    {points : List Point} (hpoints : ∀ p ∈ points, P p) {found : Option Point}
    (hfound : ∀ p ∈ found, P p)
    : (absorbAll policy found points).map view =
        (found.merge (Point.absorb policy) (absorbAll policy none points)).map view := by
  induction points generalizing found with
  | nil => rw [absorbAll, List.foldl_nil, List.foldl_nil, Option.merge_none_right]
  | cons q points ih =>
      obtain ⟨hq, hrest⟩ := List.forall_mem_cons.mp hpoints
      cases found with
      | none => rw [Option.merge_none_left]
      | some p =>
          have hp := hfound p rfl
          have hown : ∀ r ∈ absorbAll policy none points, P r :=
            absorbAll_all keeps hrest fun _ h => nomatch h
          have hgroup
              : ((some (p.absorb policy q)).merge (Point.absorb policy)
                    (absorbAll policy none points)).map view =
                  ((some p).merge (Point.absorb policy)
                    ((some q).merge (Point.absorb policy) (absorbAll policy none points))).map
                    view := by
            cases hr : absorbAll policy none points with
            | none => rfl
            | some r => exact congrArg some (assoc hp hq (hown r hr))
          calc
            (absorbAll policy (some p) (q :: points)).map view =
                ((some (p.absorb policy q)).merge (Point.absorb policy)
                  (absorbAll policy none points)).map view :=
              ih hrest fun r hr => Option.mem_some_iff.mp hr ▸ keeps hp hq
            _ = ((some p).merge (Point.absorb policy)
                  ((some q).merge (Point.absorb policy) (absorbAll policy none points))).map
                  view := hgroup
            _ = ((some p).merge (Point.absorb policy) (absorbAll policy none (q :: points))).map
                  view :=
              map_merge_congr congr p
                (ih hrest fun r hr => Option.mem_some_iff.mp hr ▸ hq).symm

end

-----------------------------------------------------------------------------------------
-- Merged data sets
-----------------------------------------------------------------------------------------

theorem absorbAll_eq_none {found : Option Point} {points : List Point}
    (h : absorbAll policy found points = none)
    : found = none ∧ points = [] := by
  induction points generalizing found with
  | nil => exact ⟨h, rfl⟩
  | cons p points ih =>
      obtain ⟨hmerged, -⟩ := ih h
      cases found with
      | none => cases hmerged
      | some q => cases hmerged

section

variable (keeps : ∀ {p q : Point}, P p → P q → P (p.absorb policy q)) {xs ys : List Point}
  (hxs : ∀ p ∈ xs, P p) (hys : ∀ p ∈ ys, P p) (description : String)

include keeps

theorem sound_ofPoints (hxs : ∀ p ∈ xs, P p)
    : (ofPoints description policy xs).value.Sound P :=
  (sound_empty description).insertAll (fun _ hp hq => keeps hp hq) fun p hp _ => hxs p hp

theorem get?_ofPoints (hxs : ∀ p ∈ xs, P p) (k : Key)
    : (ofPoints description policy xs).value.get? k = absorbAll policy none (under k xs) :=
  (sound_empty description).get?_insertAll (fun _ hp hq => keeps hp hq) (fun p hp _ => hxs p hp) k

include hxs hys

theorem get?_ofPoints_append (k : Key)
    : (ofPoints description policy (xs ++ ys)).value.get? k =
        absorbAll policy ((ofPoints description policy xs).value.get? k) (under k ys) := by
  have hall : ∀ p ∈ xs ++ ys, P p := List.forall_mem_append.mpr ⟨hxs, hys⟩
  rw [get?_ofPoints keeps description hall, get?_ofPoints keeps description hxs, under_append]
  exact List.foldl_append

theorem get?_merge_ofPoints (k : Key)
    : ((ofPoints description policy xs).value.merge policy
          (ofPoints description policy ys).value).value.get? k =
        ((ofPoints description policy xs).value.get? k).merge (Point.absorb policy)
          ((ofPoints description policy ys).value.get? k) :=
  (sound_ofPoints keeps description hxs).get?_merge (sound_ofPoints keeps description hys)
    (fun _ hp hq => keeps hp hq) k

/-- A key that only one of two lists has stands for the same point in the merged data sets and in
the data set of both lists. -/
theorem get?_merge_ofPoints_of_none {k : Key}
    (h : (ofPoints description policy xs).value.get? k = none
      ∨ (ofPoints description policy ys).value.get? k = none)
    : ((ofPoints description policy xs).value.merge policy
          (ofPoints description policy ys).value).value.get? k =
        (ofPoints description policy (xs ++ ys)).value.get? k := by
  rw [get?_merge_ofPoints keeps hxs hys, get?_ofPoints_append keeps hxs hys]
  rcases h with h | h
  · rw [h, Option.merge_none_left, get?_ofPoints keeps description hys]
  · rw [h, Option.merge_none_right]
    rw [get?_ofPoints keeps description hys] at h
    rw [(absorbAll_eq_none h).2]
    rfl

/-- In a view in which merging is associative, the merged data sets of two lists have the points
of the data set of both lists. -/
theorem map_get?_merge_ofPoints {α : Type} (view : Point → α)
    (assoc : ∀ {p q r : Point}, P p → P q → P r →
      view ((p.absorb policy q).absorb policy r) = view (p.absorb policy (q.absorb policy r)))
    (congr : ∀ {p q r : Point}, view q = view r →
      view (p.absorb policy q) = view (p.absorb policy r))
    (k : Key)
    : (((ofPoints description policy xs).value.merge policy
          (ofPoints description policy ys).value).value.get? k).map view =
        ((ofPoints description policy (xs ++ ys)).value.get? k).map view := by
  have hleft := sound_ofPoints keeps description hxs
  have hfound : ∀ p ∈ (ofPoints description policy xs).value.get? k, P p :=
    fun p hp => hleft.all (KeyMap.mem_of_get? hp)
  have hunder : ∀ p ∈ under k ys, P p := fun p hp => hys p (mem_under_iff.mp hp).1
  rw [get?_merge_ofPoints keeps hxs hys, get?_ofPoints_append keeps hxs hys,
    map_absorbAll keeps assoc congr hunder hfound, get?_ofPoints keeps description hys]

end

/-- Merging the data sets of two lists of points whose times and extremes are numbers gives the
data set of both lists in a row; the sum of times depends on the grouping where both lists have
the key, and is the sum of the two totals. -/
theorem merge_ofPoints {xs ys : List Point} (hnumeric : ∀ p ∈ xs ++ ys, p.Numeric)
    (description : String)
    : (∀ policy, policy ≠ .sum →
        ((ofPoints description policy xs).value.merge policy
            (ofPoints description policy ys).value).value =
          (ofPoints description policy (xs ++ ys)).value)
      ∧ let left := (ofPoints description .sum xs).value
        let right := (ofPoints description .sum ys).value
        let merged := (left.merge .sum right).value
        let whole := (ofPoints description .sum (xs ++ ys)).value
        merged.description = whole.description
        ∧ merged.keys = whole.keys
        ∧ (∀ k p q, merged.get? k = some p → whole.get? k = some q →
            p.key = q.key
            ∧ p.outputData = q.outputData
            ∧ p.count = q.count
            ∧ p.minTime = q.minTime
            ∧ p.maxTime = q.maxTime)
        ∧ (∀ k p q, left.get? k = some p → right.get? k = some q →
            ∃ m, merged.get? k = some m ∧ m.time = p.time + q.time)
        ∧ ∀ k, left.get? k = none ∨ right.get? k = none →
            merged.get? k = whole.get? k := by
  obtain ⟨hxs, hys⟩ := List.forall_mem_append.mp hnumeric
  have hdescription
      : ∀ policy,
          ((ofPoints description policy xs).value.merge policy
              (ofPoints description policy ys).value).value.description =
            (ofPoints description policy (xs ++ ys)).value.description := by
    intro policy
    rw [description_merge, ofPoints, ofPoints, description_insertAll, description_insertAll]
  refine ⟨fun policy hpolicy => ?_, ?_⟩
  · have keeps : ∀ {p q : Point}, p.Numeric → q.Numeric → (p.absorb policy q).Numeric :=
      fun hp hq => hp.absorb hpolicy hq
    have hmerged := (sound_ofPoints keeps description hxs).merge
      (sound_ofPoints keeps description hys) fun _ hp hq => keeps hp hq
    have hwhole := sound_ofPoints keeps description hnumeric
    have hpoints := hmerged.ascending.ext hwhole.ascending fun k => by
      have hk := map_get?_merge_ofPoints keeps hxs hys description id
        (Point.absorb_assoc hpolicy) (congrArg _) k
      rwa [Option.map_id, id, id] at hk
    exact eq_of_parts (hdescription policy) hpoints
  · have keeps : ∀ {p q : Point}, p.Ranged → q.Ranged → (p.absorb .sum q).Ranged :=
      fun hp hq => hp.absorb hq
    have hxs : ∀ p ∈ xs, p.Ranged := fun p hp => (hxs p hp).toRanged
    have hys : ∀ p ∈ ys, p.Ranged := fun p hp => (hys p hp).toRanged
    have hview := map_get?_merge_ofPoints keeps hxs hys description Point.untimed
      Point.untimed_absorb_assoc (Point.untimed_absorb_congr _)
    have hmerged := (sound_ofPoints keeps description hxs).merge
      (sound_ofPoints keeps description hys) fun _ hp hq => keeps hp hq
    have hwhole := sound_ofPoints keeps description
      (List.forall_mem_append.mpr ⟨hxs, hys⟩)
    refine ⟨hdescription .sum, ?_, fun k p q hp hq => ?_, fun k p q hp hq => ?_, fun k hk => ?_⟩
    · have hpoints := (hmerged.ascending.mapValues Point.untimed).ext
        (hwhole.ascending.mapValues Point.untimed) fun k => by
          rw [KeyMap.get?_mapValues, KeyMap.get?_mapValues]
          exact hview k
      rw [keys, keys, ← KeyMap.keys_mapValues Point.untimed, hpoints, KeyMap.keys_mapValues]
    · have hk := hview k
      rw [hp, hq] at hk
      exact Point.untimed_eq_iff.mp (Option.some.inj hk)
    · refine ⟨p.absorb .sum q, ?_, rfl⟩
      rw [get?_merge_ofPoints keeps hxs hys, hp, hq, Option.merge_some_some]
    · exact get?_merge_ofPoints_of_none keeps hxs hys description hk

/-- Observations of one key with equal times, one of another key and one without benchmark. -/
def firstHalf : List Point :=
  [.single "fib" 2 3 "in" "a", .ofCount "fib" 2 1 "in" "" 2, .single "ack" 1 2 "" "c",
    .single "" 1 1 "" "d"]

def secondHalf : List Point :=
  [.single "fib" 2 1 "in" "b", .single "fib" 2 0.5 "in" "e", .single "sort" 1 4 "" ""]

theorem merge_ofPoints_halves
    : (∀ p ∈ firstHalf ++ secondHalf, p.Numeric)
      ∧ ((ofPoints "run" .min firstHalf).value.merge .min
            (ofPoints "run" .min secondHalf).value).value =
          (ofPoints "run" .min (firstHalf ++ secondHalf)).value
      ∧ ((ofPoints "run" .sum firstHalf).value.merge .sum
            (ofPoints "run" .sum secondHalf).value).value.keys =
          [⟨"ack", "", 1⟩, ⟨"fib", "in", 2⟩, ⟨"sort", "", 1⟩] := by
  have hnumbers
      : ∀ p ∈ firstHalf ++ secondHalf,
          p.minTime.isNaN = false ∧ p.maxTime.isNaN = false ∧ p.time.isNaN = false := by
    decide +kernel
  have hnumeric : ∀ p ∈ firstHalf ++ secondHalf, p.Numeric := by
    intro p hp
    obtain ⟨hmin, hmax, htime⟩ := hnumbers p hp
    exact ⟨⟨hmin, hmax⟩, htime⟩
  obtain ⟨hsame, -, hkeys, -⟩ := merge_ofPoints hnumeric "run"
  refine ⟨hnumeric, hsame .min (by decide), hkeys.trans ?_⟩
  decide +kernel

end BenchLog.DataSet
