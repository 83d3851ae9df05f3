import BenchLog.DataSet
import BenchLog.Proofs.KeyMap

/-! What the operations on data sets preserve.
Every point stands under its own key and the keys ascend; a property of points that merging keeps
is one of all points of a data set.
-/

namespace BenchLog.DataSet

variable {P : Point → Prop} {policy : Policy} {set other : DataSet}

-----------------------------------------------------------------------------------------
-- One point put in
-----------------------------------------------------------------------------------------

/-- Putting a point in replaces the value under its key: by the point if there was none, and by
the one that was there with the point merged into it otherwise. -/
theorem value_mergeAt (policy : Policy) (k : Key) (p : Point) (set : DataSet)
    : ∃ q,
        (set.mergeAt policy k p).value = { set with points := set.points.put k q }
        ∧ (set.points.get? k = none ∧ q = p
          ∨ ∃ existing, set.points.get? k = some existing ∧ q = (existing.merge policy p).value) := by
  unfold mergeAt
  split
  · next hnone => exact ⟨p, rfl, Or.inl ⟨hnone, rfl⟩⟩
  · next existing hsome => exact ⟨_, rfl, Or.inr ⟨existing, hsome, rfl⟩⟩

theorem mergeAt_of_get?_eq_none {k : Key} (h : set.points.get? k = none) (p : Point)
    : set.mergeAt policy k p = pure { set with points := set.points.put k p } := by
  rw [mergeAt, h]

theorem insert_of_isValid {p : Point} (h : p.isValid = true)
    : set.insert policy p = set.mergeAt policy p.key p := by
  rw [insert, if_pos h]

theorem value_insert_of_not_isValid {p : Point} (h : ¬ p.isValid = true)
    : (set.insert policy p).value = set := by
  rw [insert, if_neg h]
  rfl

theorem description_insertAll {points : List Point}
    : (set.insertAll policy points).value.description = set.description := by
  induction points generalizing set with
  | nil => rfl
  | cons p points ih =>
      rw [insertAll, Journal.value_bind, ih]
      by_cases hvalid : p.isValid = true
      · obtain ⟨q, hvalue, -⟩ := value_mergeAt policy p.key p set
        rw [insert_of_isValid hvalid, hvalue]
      · rw [value_insert_of_not_isValid hvalid]

/-- Whether a point names its benchmark is settled by its key. -/
theorem isValid_of_key_eq {p q : Point} (h : p.key = q.key) (hp : p.isValid = true)
    : q.isValid = true := by
  simp only [Point.key, Key.mk.injEq] at h
  rw [Point.isValid, ← h.1]
  exact hp

-----------------------------------------------------------------------------------------
-- Sound data sets
-----------------------------------------------------------------------------------------

/-- The keys ascend, every point stands under its own key, and every point has the property. -/
structure Sound (P : Point → Prop) (set : DataSet) : Prop where
  ascending : set.points.Ascending
  keyed : ∀ {k p}, (k, p) ∈ set.points → p.key = k
  all : ∀ {k p}, (k, p) ∈ set.points → P p

/-- The policy makes a point with the property of two with the property. -/
def Keeps (P : Point → Prop) (policy : Policy) : Prop :=
  ∀ {p q : Point}, p.key = q.key → P p → P q → P (p.absorb policy q)

theorem sound_empty (description : String)
    : (empty description).Sound P :=
  ⟨KeyMap.ascending_nil, fun h => absurd h List.not_mem_nil, fun h => absurd h List.not_mem_nil⟩

theorem Sound.of_mem_values (h : set.Sound P) {p : Point} (hp : p ∈ set.points.values)
    : P p := by
  obtain ⟨⟨k, q⟩, hmem, rfl⟩ := List.mem_map.mp hp
  exact h.all hmem

theorem Sound.mono {Q : Point → Prop} (h : set.Sound P) (hPQ : ∀ {p}, P p → Q p)
    : set.Sound Q :=
  ⟨h.ascending, h.keyed, fun hmem => hPQ (h.all hmem)⟩

theorem Sound.mergeAt (h : set.Sound P) (keeps : Keeps P policy) {k : Key} {p : Point}
    (hkey : p.key = k) (hp : P p)
    : (set.mergeAt policy k p).value.Sound P := by
  obtain ⟨q, hvalue, hq⟩ := value_mergeAt policy k p set
  have hnew : q.key = k ∧ P q := by
    rcases hq with ⟨-, rfl⟩ | ⟨existing, hget, rfl⟩
    · exact ⟨hkey, hp⟩
    · have hmem := KeyMap.mem_of_get? hget
      have hsame : existing.key = p.key := (h.keyed hmem).trans hkey.symm
      rw [Point.value_merge hsame]
      exact ⟨by rw [Point.key_absorb, hsame, hkey], keeps hsame (h.all hmem) hp⟩
  rw [hvalue]
  refine ⟨h.ascending.put k q, fun {l p} hmem => ?_, fun {l p} hmem => ?_⟩
  · rcases KeyMap.mem_put hmem with he | hmem
    · cases he
      exact hnew.1
    · exact h.keyed hmem
  · rcases KeyMap.mem_put hmem with he | hmem
    · cases he
      exact hnew.2
    · exact h.all hmem

theorem Sound.insert (h : set.Sound P) (keeps : Keeps P policy) {p : Point}
    (hp : p.isValid = true → P p)
    : (set.insert policy p).value.Sound P := by
  by_cases hvalid : p.isValid = true
  · rw [insert_of_isValid hvalid]
    exact h.mergeAt keeps rfl (hp hvalid)
  · rw [value_insert_of_not_isValid hvalid]
    exact h

/-- Points put in one after the other, by induction along their list. -/
theorem Sound.insertAll (h : set.Sound P) (keeps : Keeps P policy) {points : List Point}
    (hp : ∀ p ∈ points, p.isValid = true → P p)
    : (set.insertAll policy points).value.Sound P := by
  induction points generalizing set with
  | nil => exact h
  | cons p points ih =>
      obtain ⟨hhead, htail⟩ := List.forall_mem_cons.mp hp
      exact ih (h.insert keeps hhead) htail

/-- Entries of a sound data set put in one after the other, by induction along them. -/
theorem Sound.mergeEntries (h : set.Sound P) (keeps : Keeps P policy) {entries : KeyMap Point}
    (hentries : ∀ {k p}, (k, p) ∈ entries → p.key = k ∧ P p)
    : (set.mergeEntries policy entries).value.Sound P := by
  induction entries generalizing set with
  | nil => exact h
  | cons entry entries ih =>
      obtain ⟨k, p⟩ := entry
      obtain ⟨hkey, hp⟩ := hentries List.mem_cons_self
      exact ih (h.mergeAt keeps hkey hp) fun hmem => hentries (List.mem_cons_of_mem _ hmem)

theorem Sound.merge (h : set.Sound P) (hother : other.Sound P) (keeps : Keeps P policy)
    : (set.merge policy other).value.Sound P := by
  have hentries : (set.mergeEntries policy other.points).value.Sound P :=
    h.mergeEntries keeps fun hmem => ⟨hother.keyed hmem, hother.all hmem⟩
  unfold DataSet.merge
  split
  · exact hentries
  · exact hentries

theorem Sound.mapValues (h : set.Sound P) {f : Point → Point} (hkey : ∀ p, (f p).key = p.key)
    (hp : ∀ p, P p → P (f p))
    : ({ set with points := set.points.mapValues f } : DataSet).Sound P := by
  refine ⟨h.ascending.mapValues f, fun {k p} hmem => ?_, fun {k p} hmem => ?_⟩
  · obtain ⟨⟨l, q⟩, hq, he⟩ := List.mem_map.mp hmem
    cases he
    rw [hkey, h.keyed hq]
  · obtain ⟨⟨l, q⟩, hq, he⟩ := List.mem_map.mp hmem
    cases he
    exact hp q (h.all hq)

theorem Sound.averaged (h : set.Sound P) (hp : ∀ p, P p → P p.averaged)
    : set.averaged.Sound P :=
  h.mapValues Point.key_averaged hp

theorem Sound.trimmed (h : set.Sound P) (hp : ∀ p, P p → P p.trimmed)
    : set.trimmed.Sound P :=
  h.mapValues Point.key_trimmed hp

-----------------------------------------------------------------------------------------
-- The keys of points put in
-----------------------------------------------------------------------------------------

theorem mem_keys_mergeAt {k l : Key} {p : Point}
    : l ∈ (set.mergeAt policy k p).value.keys ↔ l = k ∨ l ∈ set.keys := by
  obtain ⟨q, hvalue, -⟩ := value_mergeAt policy k p set
  rw [hvalue, keys, keys, KeyMap.mem_keys_iff, KeyMap.mem_keys_iff]
  by_cases h : l = k
  · subst h
    simp [KeyMap.get?_put_self]
  · simp [KeyMap.get?_put_of_ne (Ne.symm h), h]

/-- The keys after points were put in are the former ones and those of the points that name their
benchmark. -/
theorem mem_keys_insertAll {k : Key} {points : List Point}
    : k ∈ (set.insertAll policy points).value.keys ↔
        k ∈ set.keys ∨ ∃ p ∈ points, p.isValid = true ∧ p.key = k := by
  induction points generalizing set with
  | nil => simp [insertAll]
  | cons p points ih =>
      rw [insertAll, Journal.value_bind, ih]
      by_cases hvalid : p.isValid = true
      · rw [insert_of_isValid hvalid, mem_keys_mergeAt]
        simp only [List.mem_cons, exists_eq_or_imp, hvalid, true_and]
        grind
      · rw [value_insert_of_not_isValid hvalid]
        simp [hvalid]

/-- Points with ascending keys after those of the data set are put in at its end, each as it is
and without a report, by induction along their list. -/
theorem insertAll_of_ascending {points : List Point} (hvalid : ∀ p ∈ points, p.isValid = true)
    (h : KeyMap.Ascending (set.points ++ points.map fun p => (p.key, p)))
    : (set.insertAll policy points).value =
        { set with points := set.points ++ points.map fun p => (p.key, p) }
      ∧ (set.insertAll policy points).diagnostics = [] := by
  induction points generalizing set with
  | nil => simp [insertAll]
  | cons p points ih =>
      obtain ⟨hp, hrest⟩ := List.forall_mem_cons.mp hvalid
      have hlt : ∀ l ∈ set.points.keys, l.compare p.key = .lt := by
        rw [KeyMap.Ascending, KeyMap.keys, List.map_append, List.pairwise_append] at h
        exact fun l hl => h.2.2 l hl p.key (by simp)
      have hnone : set.points.get? p.key = none :=
        KeyMap.get?_eq_none_iff.mpr fun hmem => Key.ne_of_compare_lt (hlt _ hmem) rfl
      have hstep :
          set.insert policy p = pure { set with points := set.points ++ [(p.key, p)] } := by
        rw [insert_of_isValid hp, mergeAt_of_get?_eq_none hnone, KeyMap.put_of_forall_lt hlt]
      rw [insertAll, hstep, pure_bind]
      have hnext := @ih { set with points := set.points ++ [(p.key, p)] } hrest (by simpa using h)
      simpa using hnext

end BenchLog.DataSet
