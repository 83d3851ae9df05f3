import BenchLog.Proofs.DataSet.Folded
import BenchLog.Proofs.DataSet.Whole

/-! What the policies make of repeated measurements of one experiment.
Each point stands for one observation. Merged one after the other they leave their sum, the first of
the fastest or slowest ones, the last one or the first one, and the extremes of all of them under
every policy.
-/

namespace BenchLog

open Decimal

-----------------------------------------------------------------------------------------
-- The first of the least ones
-----------------------------------------------------------------------------------------

section

variable {α β : Type} [LinearOrder β] {rank : α → β} {precedes : α → α → Prop}
  [DecidableRel precedes] {P : α → Prop} {a b : α} {xs ys : List α}

/-- A choice is made among images as among what they are images of. -/
theorem choose_map {γ : Type} {f : α → γ} {precedesImage : γ → γ → Prop}
    [DecidableRel precedesImage] (h : ∀ a b, precedesImage (f a) (f b) ↔ precedes a b) (a b : α)
    : choose precedesImage (f a) (f b) = f (choose precedes a b) := by
  unfold choose
  by_cases hba : precedes b a
  · rw [if_pos hba, if_pos ((h b a).mpr hba)]
  · rw [if_neg hba, if_neg fun himage => hba ((h b a).mp himage)]

/-- The value in a list that comes first of those ranked least. -/
def FirstLeast (rank : α → β) (xs : List α) (a : α) : Prop :=
  ∃ before after,
    xs = before ++ a :: after
    ∧ (∀ b ∈ before, rank a < rank b)
    ∧ ∀ b ∈ after, rank a ≤ rank b

theorem FirstLeast.mem (h : FirstLeast rank xs a)
    : a ∈ xs := by
  obtain ⟨before, after, rfl, -, -⟩ := h
  simp

theorem FirstLeast.le (h : FirstLeast rank xs a) (hb : b ∈ xs)
    : rank a ≤ rank b := by
  obtain ⟨before, after, rfl, hbefore, hafter⟩ := h
  rcases List.mem_append.mp hb with hb | hb
  · exact (hbefore b hb).le
  · rcases List.mem_cons.mp hb with rfl | hb
    · exact le_refl _
    · exact hafter b hb

theorem firstLeast_singleton (rank : α → β) (a : α)
    : FirstLeast rank [a] a :=
  ⟨[], [], rfl, by simp, by simp⟩

/-- One more value is chosen exactly if it is ranked below all former ones. -/
theorem FirstLeast.choose (h : FirstLeast rank xs a) (hrank : precedes b a ↔ rank b < rank a)
    : FirstLeast rank (xs ++ [b]) (choose precedes a b) := by
  by_cases hlt : rank b < rank a
  · -- all former values are ranked above the new one, with the least of them
    rw [BenchLog.choose, if_pos (hrank.mpr hlt)]
    exact ⟨xs, [], rfl, fun c hc => hlt.trans_le (h.le hc), by simp⟩
  · rw [BenchLog.choose, if_neg fun hb => hlt (hrank.mp hb)]
    obtain ⟨before, after, rfl, hbefore, hafter⟩ := h
    refine ⟨before, after ++ [b], by simp, hbefore, ?_⟩
    exact List.forall_mem_append.mpr ⟨hafter, List.forall_mem_singleton.mpr (not_lt.mp hlt)⟩

/-- Choosing one after the other comes to the first of the least ones, by induction along the
list. -/
theorem FirstLeast.foldl_choose (h : FirstLeast rank xs a)
    (hrank : ∀ {a b}, P a → P b → (precedes a b ↔ rank a < rank b)) (hxs : ∀ x ∈ xs, P x)
    (hys : ∀ y ∈ ys, P y)
    : FirstLeast rank (xs ++ ys) (ys.foldl (BenchLog.choose precedes) a) := by
  induction ys generalizing xs a with
  | nil => rwa [List.append_nil]
  | cons b ys ih =>
      obtain ⟨hb, hys⟩ := List.forall_mem_cons.mp hys
      have hnext := h.choose (hrank hb (hxs a h.mem))
      have hall : ∀ x ∈ xs ++ [b], P x :=
        List.forall_mem_append.mpr ⟨hxs, List.forall_mem_singleton.mpr hb⟩
      rw [← List.singleton_append, ← List.append_assoc]
      exact ih hnext hall hys

/-- The first value in a list that is at most all of them. -/
def first? (le : α → α → Prop) [DecidableRel le] (xs : List α) : Option α :=
  xs.find? fun a => xs.all fun b => decide (le a b)

theorem FirstLeast.first?_eq {le : α → α → Prop} [DecidableRel le] (h : FirstLeast rank xs a)
    (hle : ∀ a ∈ xs, ∀ b ∈ xs, (le a b ↔ rank a ≤ rank b))
    : first? le xs = some a := by
  obtain ⟨before, after, hxs, hbefore, -⟩ := id h
  refine List.find?_eq_some_iff_append.mpr ⟨?_, before, after, hxs, fun b hb => ?_⟩
  · simp only [List.all_eq_true, decide_eq_true_eq]
    exact fun b hb => (hle a h.mem b hb).mpr (h.le hb)
  · have hmem : b ∈ xs := hxs ▸ List.mem_append_left _ hb
    have hnot : ¬ le b a := fun hba => (hbefore b hb).not_ge ((hle b hmem a h.mem).mp hba)
    simp only [Bool.not_eq_true', List.all_eq_false, decide_eq_true_eq]
    exact ⟨a, h.mem, hnot⟩

end

namespace Point

variable {policy : Policy} {p : Point} {points : List Point}

-----------------------------------------------------------------------------------------
-- The fastest and the slowest point
-----------------------------------------------------------------------------------------

/-- The first of the points with the least time, chosen one after the other. -/
def fastest : Point → List Point → Point :=
  List.foldl (choose (·.time < ·.time))

/-- The first of the points with the greatest time, chosen one after the other. -/
def slowest : Point → List Point → Point :=
  List.foldl (choose (·.time > ·.time))

/-- The points are ordered by their times, none of which is no number. -/
theorem firstLeast_fastest (h : ∀ q ∈ p :: points, q.time.isNaN = false)
    : FirstLeast (fun q => place q.time) (p :: points) (fastest p points) := by
  obtain ⟨hp, hpoints⟩ := List.forall_mem_cons.mp h
  have hrank : ∀ {q r : Point}, q.time.isNaN = false → r.time.isNaN = false →
      (q.time < r.time ↔ place q.time < place r.time) :=
    lt_iff_place_lt
  exact (firstLeast_singleton _ p).foldl_choose hrank (List.forall_mem_singleton.mpr hp) hpoints

theorem firstLeast_slowest (h : ∀ q ∈ p :: points, q.time.isNaN = false)
    : FirstLeast (fun q => OrderDual.toDual (place q.time)) (p :: points) (slowest p points) := by
  obtain ⟨hp, hpoints⟩ := List.forall_mem_cons.mp h
  have hrank : ∀ {q r : Point}, q.time.isNaN = false → r.time.isNaN = false →
      (q.time > r.time ↔ OrderDual.toDual (place q.time) < OrderDual.toDual (place r.time)) :=
    fun hq hr => lt_iff_place_lt hr hq
  exact (firstLeast_singleton _ p).foldl_choose hrank (List.forall_mem_singleton.mpr hp) hpoints

theorem first?_le_eq (h : ∀ q ∈ p :: points, q.time.isNaN = false)
    : first? (·.time ≤ ·.time) (p :: points) = some (fastest p points) :=
  (firstLeast_fastest h).first?_eq fun q hq r hr => le_iff_place_le (h q hq) (h r hr)

theorem first?_ge_eq (h : ∀ q ∈ p :: points, q.time.isNaN = false)
    : first? (·.time ≥ ·.time) (p :: points) = some (slowest p points) :=
  (firstLeast_slowest h).first?_eq fun q hq r hr => le_iff_place_le (h r hr) (h q hq)

-----------------------------------------------------------------------------------------
-- The extremes
-----------------------------------------------------------------------------------------

/-- Whatever is kept, an extreme is updated with that of every point. -/
theorem extreme_foldl_absorb {extreme : Point → Float} {precedes : Float → Float → Prop}
    [DecidableRel precedes]
    (habsorb : ∀ q r, extreme (q.absorb policy r) = choose precedes (extreme q) (extreme r))
    (h : ∀ q ∈ p :: points, extreme q = q.time)
    : extreme (points.foldl (absorb policy) p) =
        (points.foldl (choose fun q r => precedes q.time r.time) p).time := by
  obtain ⟨hp, hpoints⟩ := List.forall_mem_cons.mp h
  calc
    extreme (points.foldl (absorb policy) p) =
        points.foldl (fun t q => choose precedes t (extreme q)) (extreme p) :=
      (List.foldl_hom extreme fun q r => (habsorb q r).symm).symm
    _ = points.foldl (fun t q => choose precedes t q.time) p.time := by
      rw [hp]
      exact List.foldl_ext _ _ _ fun t q hq => by rw [hpoints q hq]
    _ = (points.foldl (choose fun q r => precedes q.time r.time) p).time :=
      List.foldl_hom time fun q r => choose_map (fun _ _ => Iff.rfl) q r

theorem minTime_foldl_absorb (h : ∀ q ∈ p :: points, q.Measured)
    : (points.foldl (absorb policy) p).minTime = (fastest p points).time :=
  extreme_foldl_absorb (minTime_absorb policy) fun q hq => (h q hq).minTime

theorem maxTime_foldl_absorb (h : ∀ q ∈ p :: points, q.Measured)
    : (points.foldl (absorb policy) p).maxTime = (slowest p points).time :=
  extreme_foldl_absorb (maxTime_absorb policy) fun q hq => (h q hq).maxTime

-----------------------------------------------------------------------------------------
-- The observation
-----------------------------------------------------------------------------------------

/-- A policy that keeps one of two observations keeps that of the point that it leads to. -/
theorem observation_foldl_absorb (hpolicy : policy ≠ .sum) {keep : Point → Point → Point}
    (hkeep : ∀ q r, keptObservation policy q.observation r.observation = (keep q r).observation)
    : (points.foldl (absorb policy) p).observation = (points.foldl keep p).observation := by
  have habsorb : ∀ q r : Point,
      keptObservation policy q.observation r.observation = (q.absorb policy r).observation :=
    fun q r => (observation_absorb hpolicy).symm
  calc
    (points.foldl (absorb policy) p).observation =
        points.foldl (fun o q => keptObservation policy o q.observation) p.observation :=
      (List.foldl_hom observation habsorb).symm
    _ = (points.foldl keep p).observation := List.foldl_hom observation hkeep

theorem observation_foldl_absorb_min
    : (points.foldl (absorb .min) p).observation = (fastest p points).observation := by
  apply observation_foldl_absorb (by decide)
  intro q r
  change choose (fun o o' => o.1 < o'.1) q.observation r.observation =
    observation (choose (·.time < ·.time) q r)
  exact choose_map (fun _ _ => Iff.rfl) q r

theorem observation_foldl_absorb_max
    : (points.foldl (absorb .max) p).observation = (slowest p points).observation := by
  apply observation_foldl_absorb (by decide)
  intro q r
  change choose (fun o o' => o.1 > o'.1) q.observation r.observation =
    observation (choose (·.time > ·.time) q r)
  exact choose_map (fun _ _ => Iff.rfl) q r

theorem observation_foldl_absorb_last
    : (points.foldl (absorb .last) p).observation = (points.getLastD p).observation := by
  have hlast : points.foldl (fun _ q => q) p = points.getLastD p := by
    induction points generalizing p with
    | nil => rfl
    | cons q points ih => rw [List.foldl_cons, List.getLastD_cons, ih]
  rw [← hlast]
  exact observation_foldl_absorb (by decide) fun _ _ => rfl

theorem observation_foldl_absorb_warn
    : (points.foldl (absorb .warn) p).observation = p.observation := by
  have hfirst : points.foldl (fun q _ => q) p = p := List.foldl_fixed points
  rw [observation_foldl_absorb (by decide) fun _ _ => rfl, hfirst]

/-- Outputs joined one after the other are those that are not empty, separated in one text. -/
theorem foldl_joinOutputs (output : String) (outputs : List String)
    : outputs.foldl joinOutputs output =
        ", ".intercalate ((output :: outputs).filter fun text => text ≠ "") := by
  induction outputs generalizing output with
  | nil =>
      by_cases houtput : output = ""
      · simp [houtput]
      · simp [houtput]
  | cons next outputs ih =>
      rw [List.foldl_cons, ih]
      rcases eq_or_ne output "" with rfl | houtput
      · rw [empty_joinOutputs]
        simp
      · rcases eq_or_ne next "" with rfl | hnext
        · rw [joinOutputs_empty]
          simp [List.filter_cons]
        · have hjoined : output ++ ", " ++ next ≠ "" := fun h =>
            hnext (String.append_eq_empty_iff.mp h).2
          rw [joinOutputs_of_ne houtput hnext]
          simp only [List.filter_cons, ne_eq, houtput, hnext, hjoined, not_false_eq_true,
            decide_true, if_true]
          rw [String.intercalate_cons_append, String.intercalate_cons_cons]

theorem observation_foldl_absorb_sum (h : ∀ q ∈ p :: points, q.Measured)
    : (points.foldl (absorb .sum) p).observation =
        (points.foldl (fun t q => t + q.time) p.time,
          ", ".intercalate (((p :: points).map (·.outputData)).filter fun text => text ≠ ""),
          (p :: points).length) := by
  obtain ⟨hp, hpoints⟩ := List.forall_mem_cons.mp h
  have htime
      : (points.foldl (absorb .sum) p).time = points.foldl (fun t q => t + q.time) p.time :=
    (List.foldl_hom time fun _ _ => rfl).symm
  have houtput
      : (points.foldl (absorb .sum) p).outputData =
          (points.map (·.outputData)).foldl joinOutputs p.outputData := by
    rw [List.foldl_map]
    exact (List.foldl_hom outputData fun _ _ => rfl).symm
  have hcount : (points.foldl (absorb .sum) p).count = (p :: points).length := by
    rw [count_foldl_absorb_sum fun q hq => (hpoints q hq).count, hp.count, List.length_cons,
      Nat.add_comm]
  rw [observation, htime, houtput, hcount, foldl_joinOutputs]
  rfl

-----------------------------------------------------------------------------------------
-- All policies
-----------------------------------------------------------------------------------------

theorem key_foldl_absorb
    : (points.foldl (absorb policy) p).key = p.key := by
  induction points generalizing p with
  | nil => rfl
  | cons q points ih => rw [List.foldl_cons, ih, key_absorb]

/-- Points of one key are reported one by one, under the warning policy only. -/
theorem diagnostics_foldlM_merge (h : ∀ q ∈ points, q.key = p.key)
    : (points.foldlM (merge policy) p).diagnostics =
        if policy = .warn then points.map p.duplicate else [] := by
  induction points generalizing p with
  | nil => simp
  | cons q points ih =>
      obtain ⟨hq, hpoints⟩ := List.forall_mem_cons.mp h
      rw [List.foldlM_cons, Journal.diagnostics_bind, value_merge hq.symm,
        diagnostics_merge hq.symm, ih fun r hr => (hpoints r hr).trans (key_absorb policy p q).symm]
      split
      · next hwarn =>
          subst hwarn
          rfl
      · rfl

/-- Repeated measurements of one experiment merge into their sum, into the first of the fastest or
of the slowest ones, into the last one, or into the first one with a report of each other one. The
extremes are those of all of them under every policy. -/
theorem merge_repetitions (hmeasured : ∀ q ∈ p :: points, q.Measured)
    (hkey : ∀ q ∈ points, q.key = p.key)
    : let group := p :: points
      let merged := fun policy => points.foldlM (merge policy) p
      ∃ least greatest,
        first? (·.time ≤ ·.time) group = some least
        ∧ first? (·.time ≥ ·.time) group = some greatest
        ∧ (merged .sum).value.observation =
            (points.foldl (fun t q => t + q.time) p.time,
              ", ".intercalate ((group.map (·.outputData)).filter fun text => text ≠ ""),
              group.length)
        ∧ (merged .min).value.observation = (least.time, least.outputData, 1)
        ∧ (merged .max).value.observation = (greatest.time, greatest.outputData, 1)
        ∧ (merged .last).value.observation =
            ((points.getLastD p).time, (points.getLastD p).outputData, 1)
        ∧ (merged .warn).value.observation = (p.time, p.outputData, 1)
        ∧ (merged .warn).diagnostics =
            points.map (fun q => .duplicatePoint p.keyText p.describe q.describe)
        ∧ ∀ policy,
            (merged policy).value.key = p.key
            ∧ (merged policy).value.minTime = least.time
            ∧ (merged policy).value.maxTime = greatest.time
            ∧ (policy ≠ .warn → (merged policy).diagnostics = []) := by
  intro group merged
  have hvalue : ∀ policy, (merged policy).value = points.foldl (absorb policy) p :=
    fun _ => value_foldlM_merge hkey
  have hdiagnostics : ∀ policy,
      (merged policy).diagnostics = if policy = .warn then points.map p.duplicate else [] :=
    fun _ => diagnostics_foldlM_merge hkey
  have hnumber : ∀ q ∈ group, q.time.isNaN = false := fun q hq => (hmeasured q hq).number
  have hsingle : ∀ q ∈ group, q.observation = (q.time, q.outputData, 1) := by
    intro q hq
    rw [observation, (hmeasured q hq).count]
  have hlast : points.getLastD p ∈ group := List.getLastD_mem_cons
  refine ⟨fastest p points, slowest p points, first?_le_eq hnumber, first?_ge_eq hnumber,
    ?_, ?_, ?_, ?_, ?_, ?_, fun policy => ⟨?_, ?_, ?_, ?_⟩⟩
  · rw [hvalue, observation_foldl_absorb_sum hmeasured]
  · rw [hvalue, observation_foldl_absorb_min, hsingle _ (firstLeast_fastest hnumber).mem]
  · rw [hvalue, observation_foldl_absorb_max, hsingle _ (firstLeast_slowest hnumber).mem]
  · rw [hvalue, observation_foldl_absorb_last, hsingle _ hlast]
  · rw [hvalue, observation_foldl_absorb_warn, hsingle _ List.mem_cons_self]
  · exact hdiagnostics .warn
  · rw [hvalue, key_foldl_absorb]
  · rw [hvalue, minTime_foldl_absorb hmeasured]
  · rw [hvalue, maxTime_foldl_absorb hmeasured]
  · intro hpolicy
    rw [hdiagnostics, if_neg hpolicy]

/-- The same experiment with a time and an output. -/
def repeated (time : Float) (output : String) : Point :=
  single "fib" 2 time "in" output

/-- Of the two fastest and of the two slowest points the first one is kept. -/
theorem merge_repetitions_tied
    : let merged := fun policy =>
        [repeated 1 "", repeated 1 "b", repeated 3 "c"].foldlM (merge policy) (repeated 3 "a")
      (merged .sum).value.observation = (8, "a, b, c", 4)
      ∧ (merged .min).value.observation = (1, "", 1)
      ∧ (merged .max).value.observation = (3, "a", 1)
      ∧ (merged .last).value.observation = (3, "c", 1)
      ∧ (merged .warn).value.observation = (3, "a", 1)
      ∧ (merged .warn).diagnostics.length = 3
      ∧ ∀ policy, (merged policy).value.minTime = 1 ∧ (merged policy).value.maxTime = 3 := by
  intro merged
  let group := [repeated 3 "a", repeated 1 "", repeated 1 "b", repeated 3 "c"]
  have hmeasured : ∀ q ∈ group, q.Measured := by decide +kernel
  have hkey : ∀ q ∈ group.tail, q.key = (repeated 3 "a").key := by decide +kernel
  obtain ⟨least, greatest, hleast, hgreatest, hsum, hmin, hmax, hlast, hwarn, hdiagnostics,
    hextremes⟩ := merge_repetitions hmeasured hkey
  have hfastest
      : (first? (·.time ≤ ·.time) group).map (fun q => (q.time, q.outputData)) =
          some (1, "") := by
    decide +kernel
  have hslowest
      : (first? (·.time ≥ ·.time) group).map (fun q => (q.time, q.outputData)) =
          some (3, "a") := by
    decide +kernel
  rw [hleast] at hfastest
  rw [hgreatest] at hslowest
  obtain ⟨hltime, hloutput⟩ := Prod.mk.inj (Option.some.inj hfastest)
  obtain ⟨hgtime, hgoutput⟩ := Prod.mk.inj (Option.some.inj hslowest)
  rw [hltime, hloutput] at hmin
  rw [hgtime, hgoutput] at hmax
  refine ⟨hsum.trans ?_, hmin, hmax, hlast, hwarn, ?_, fun policy => ?_⟩
  · decide +kernel
  · rw [hdiagnostics, List.length_map]
    rfl
  · obtain ⟨-, hmintime, hmaxtime, -⟩ := hextremes policy
    exact ⟨hmintime.trans hltime, hmaxtime.trans hgtime⟩

end Point

end BenchLog
