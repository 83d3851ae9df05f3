import BenchLog.KeyMap

/-! Maps whose entries stand in strictly ascending order of their keys.
What is found after a value was put does not depend on the order; that every entry is found does.
-/

namespace BenchLog

-----------------------------------------------------------------------------------------
-- The order of the keys
-----------------------------------------------------------------------------------------

instance : Std.TransCmp Key.compare :=
  inferInstanceAs
    (Std.TransCmp
      (compareLex (compareOn Key.benchmark)
        (compareLex (compareOn Key.inputParams) (compareOn Key.processors))))

/-- Keys that are equal in the order agree in all three parts. -/
theorem Key.compare_eq_iff {k l : Key}
    : k.compare l = .eq ↔ k = l := by
  cases k
  cases l
  simp [Key.compare, Ordering.then_eq_eq]

instance : Std.LawfulEqCmp Key.compare where
  eq_of_compare h := Key.compare_eq_iff.mp h

theorem Key.ne_of_compare_lt {k l : Key} (h : k.compare l = .lt)
    : k ≠ l := by
  rintro rfl
  rw [Key.compare_eq_iff.mpr rfl] at h
  cases h

namespace KeyMap

variable {α : Type}

/-- The keys of the map strictly ascend. -/
def Ascending (m : KeyMap α) : Prop :=
  m.keys.Pairwise fun k l => k.compare l = .lt

-----------------------------------------------------------------------------------------
-- What is found in a map
-----------------------------------------------------------------------------------------

theorem get?_put_self (k : Key) (a : α) (m : KeyMap α)
    : (m.put k a).get? k = some a := by
  induction m with
  | nil => simp [put, get?]
  | cons entry entries ih =>
      obtain ⟨l, b⟩ := entry
      rw [put]
      split
      · simp [get?]
      · simp [get?]
      · next hgt =>
          have hne : l ≠ k := by
            rintro rfl
            rw [Key.compare_eq_iff.mpr rfl] at hgt
            cases hgt
          rw [get?, if_neg hne, ih]

theorem get?_put_of_ne {k l : Key} (h : k ≠ l) (a : α) (m : KeyMap α)
    : (m.put k a).get? l = m.get? l := by
  induction m with
  | nil => simp [put, get?, h]
  | cons entry entries ih =>
      obtain ⟨j, b⟩ := entry
      rw [put]
      split
      · rw [get?, if_neg h]
      · next heq =>
          obtain rfl := Key.compare_eq_iff.mp heq
          rw [get?, get?, if_neg h, if_neg h]
      · rw [get?, get?, ih]

theorem mem_of_get? {k : Key} {a : α} {m : KeyMap α} (h : m.get? k = some a)
    : (k, a) ∈ m := by
  induction m with
  | nil => cases h
  | cons entry entries ih =>
      obtain ⟨l, b⟩ := entry
      rw [get?] at h
      split at h
      · next heq =>
          cases h
          exact heq ▸ List.mem_cons_self
      · exact List.mem_cons_of_mem _ (ih h)

theorem mem_keys_iff {k : Key} {m : KeyMap α}
    : k ∈ m.keys ↔ ∃ a, m.get? k = some a := by
  constructor
  · intro h
    induction m with
    | nil => cases h
    | cons entry entries ih =>
        obtain ⟨l, b⟩ := entry
        rw [get?]
        split
        · exact ⟨b, rfl⟩
        · next hne =>
            rcases List.mem_cons.mp h with rfl | h
            · exact absurd rfl hne
            · exact ih h
  · rintro ⟨a, h⟩
    exact List.mem_map_of_mem (mem_of_get? h)

theorem get?_eq_none_iff {k : Key} {m : KeyMap α}
    : m.get? k = none ↔ k ∉ m.keys := by
  rw [mem_keys_iff, Option.eq_none_iff_forall_ne_some]
  simp

/-- The entries after a value was put are the new one and others that were there. -/
theorem mem_put {k : Key} {a : α} {m : KeyMap α} {entry : Key × α} (h : entry ∈ m.put k a)
    : entry = (k, a) ∨ entry ∈ m := by
  induction m with
  | nil => simpa [put] using h
  | cons other entries ih =>
      obtain ⟨l, b⟩ := other
      rw [put] at h
      split at h
      · simpa using h
      · rcases List.mem_cons.mp h with h | h
        · exact Or.inl h
        · exact Or.inr (List.mem_cons_of_mem _ h)
      · rcases List.mem_cons.mp h with h | h
        · exact Or.inr (h ▸ List.mem_cons_self)
        · exact (ih h).imp_right (List.mem_cons_of_mem _)

-----------------------------------------------------------------------------------------
-- Ascending maps
-----------------------------------------------------------------------------------------

theorem ascending_nil
    : Ascending ([] : KeyMap α) :=
  List.Pairwise.nil

theorem ascending_cons {k : Key} {a : α} {m : KeyMap α}
    : Ascending ((k, a) :: m) ↔ (∀ l ∈ m.keys, k.compare l = .lt) ∧ m.Ascending :=
  List.pairwise_cons

/-- Putting a value keeps the order, by induction along the map. -/
theorem Ascending.put {m : KeyMap α} (h : m.Ascending) (k : Key) (a : α)
    : (m.put k a).Ascending := by
  induction m with
  | nil => exact ascending_cons.mpr ⟨by simp [keys], ascending_nil⟩
  | cons entry entries ih =>
      obtain ⟨l, b⟩ := entry
      obtain ⟨hl, hrest⟩ := ascending_cons.mp h
      rw [KeyMap.put]
      split
      · next hlt =>
          refine ascending_cons.mpr ⟨?_, h⟩
          intro j hj
          rcases List.mem_cons.mp hj with rfl | hj
          · exact hlt
          · exact Std.TransCmp.lt_trans hlt (hl j hj)
      · next heq =>
          obtain rfl := Key.compare_eq_iff.mp heq
          exact ascending_cons.mpr ⟨hl, hrest⟩
      · next hgt =>
          refine ascending_cons.mpr ⟨?_, ih hrest⟩
          intro j hj
          obtain ⟨⟨_, c⟩, hmem, rfl⟩ := List.mem_map.mp hj
          rcases mem_put hmem with he | hmem
          · cases he
            exact Std.OrientedCmp.gt_iff_lt.mp hgt
          · exact hl _ (List.mem_map_of_mem hmem)

theorem Ascending.mapValues {β : Type} {m : KeyMap α} (h : m.Ascending) (f : α → β)
    : (m.mapValues f).Ascending := by
  rw [Ascending, keys_mapValues]
  exact h

theorem Ascending.nodup_keys {m : KeyMap α} (h : m.Ascending)
    : m.keys.Nodup :=
  h.imp fun hlt => Key.ne_of_compare_lt hlt

theorem Ascending.get?_of_mem {m : KeyMap α} (h : m.Ascending) {k : Key} {a : α}
    (hmem : (k, a) ∈ m)
    : m.get? k = some a := by
  induction m with
  | nil => cases hmem
  | cons entry entries ih =>
      obtain ⟨l, b⟩ := entry
      obtain ⟨hl, hrest⟩ := ascending_cons.mp h
      rw [get?]
      rcases List.mem_cons.mp hmem with he | hmem
      · cases he
        exact if_pos rfl
      · rw [if_neg (Key.ne_of_compare_lt (hl k (List.mem_map_of_mem hmem))), ih hrest hmem]

/-- A value under a key after all others comes at the end. -/
theorem put_of_forall_lt {k : Key} {m : KeyMap α} (h : ∀ l ∈ m.keys, l.compare k = .lt) (a : α)
    : m.put k a = m ++ [(k, a)] := by
  induction m with
  | nil => rfl
  | cons entry entries ih =>
      obtain ⟨l, b⟩ := entry
      have hgt : k.compare l = .gt := Std.OrientedCmp.gt_iff_lt.mpr (h l List.mem_cons_self)
      rw [put, hgt]
      rw [ih fun j hj => h j (List.mem_cons_of_mem _ hj)]
      rfl

-----------------------------------------------------------------------------------------
-- Maps in which the same is found
-----------------------------------------------------------------------------------------

theorem get?_of_forall_lt {k : Key} {m : KeyMap α} (h : ∀ l ∈ m.keys, k.compare l = .lt)
    : m.get? k = none :=
  get?_eq_none_iff.mpr fun hmem => Key.ne_of_compare_lt (h k hmem) rfl

/-- A map in which the same is found as in an ascending one begins with no lesser key. -/
theorem Ascending.not_lt_head {k l : Key} {a b : α} {m n : KeyMap α}
    (hn : Ascending ((l, b) :: n)) (h : ∀ j, get? j ((k, a) :: m) = get? j ((l, b) :: n))
    : k.compare l ≠ .lt := by
  intro hlt
  obtain ⟨hl, -⟩ := ascending_cons.mp hn
  have hnone : get? k ((l, b) :: n) = none := by
    apply get?_of_forall_lt
    intro j hj
    rcases List.mem_cons.mp hj with rfl | hj
    · exact hlt
    · exact Std.TransCmp.lt_trans hlt (hl j hj)
  have hsome := h k
  rw [hnone, get?, if_pos rfl] at hsome
  cases hsome

/-- Ascending maps in which the same is found are the same, by induction along both. -/
theorem Ascending.ext {m n : KeyMap α} (hm : m.Ascending) (hn : n.Ascending)
    (h : ∀ k, m.get? k = n.get? k)
    : m = n := by
  induction m generalizing n with
  | nil =>
      cases n with
      | nil => rfl
      | cons entry n =>
          obtain ⟨l, b⟩ := entry
          have hnone := h l
          rw [get?, get?, if_pos rfl] at hnone
          cases hnone
  | cons entry m ih =>
      obtain ⟨k, a⟩ := entry
      cases n with
      | nil =>
          have hnone := h k
          rw [get?, get?, if_pos rfl] at hnone
          cases hnone
      | cons entry n =>
          obtain ⟨l, b⟩ := entry
          have hkey : k = l := by
            cases hc : k.compare l with
            | lt => exact absurd hc (hn.not_lt_head h)
            | eq => exact Key.compare_eq_iff.mp hc
            | gt =>
                have hlt := Std.OrientedCmp.gt_iff_lt.mp hc
                exact absurd hlt (hm.not_lt_head fun j => (h j).symm)
          subst hkey
          have hvalue := h k
          rw [get?, get?, if_pos rfl, if_pos rfl] at hvalue
          cases hvalue
          obtain ⟨hk, hm⟩ := ascending_cons.mp hm
          obtain ⟨hl, hn⟩ := ascending_cons.mp hn
          have htail : m = n := by
            apply ih hm hn
            intro j
            by_cases heq : k = j
            · subst heq
              rw [get?_of_forall_lt hk, get?_of_forall_lt hl]
            · have hj := h j
              rwa [get?, get?, if_neg heq, if_neg heq] at hj
          rw [htail]

end KeyMap

end BenchLog
