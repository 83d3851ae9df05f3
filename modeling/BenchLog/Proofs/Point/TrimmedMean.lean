import BenchLog.Proofs.DataSet.Repetitions
import BenchLog.Proofs.Decimal.Exact
import BenchLog.Proofs.Point.TrimmedAverage

/-! The trimmed average as a mean without the extremes.
A summed point knows a total, a count and two extremes. As long as nothing is rounded but the
quotient, these are enough for the mean of the observations without one of the smallest and one of
the largest of them, in whatever order they were summed up.
-/

namespace BenchLog

open Decimal

-----------------------------------------------------------------------------------------
-- Numbers without their extremes
-----------------------------------------------------------------------------------------

/-- The numbers without one of the least and one of the greatest of them. -/
def withoutExtremes (values : List ℚ) : List ℚ :=
  match values.min?, values.max? with
  | some least, some greatest => (values.erase least).erase greatest
  | _, _ => values

section

variable {values others : List ℚ} {least greatest : ℚ}

theorem min?_eq_of_perm (h : values.Perm others)
    : values.min? = others.min? := by
  ext least
  simp only [List.min?_eq_some_iff, h.mem_iff]

theorem max?_eq_of_perm (h : values.Perm others)
    : values.max? = others.max? := by
  ext greatest
  simp only [List.max?_eq_some_iff, h.mem_iff]

theorem withoutExtremes_perm (h : values.Perm others)
    : (withoutExtremes values).Perm (withoutExtremes others) := by
  unfold withoutExtremes
  rw [min?_eq_of_perm h, max?_eq_of_perm h]
  split
  · exact (h.erase _).erase _
  · exact h

/-- Even if the least number is the greatest one, it is there twice. -/
theorem mem_erase_of_length (hmin : values.min? = some least) (hmax : values.max? = some greatest)
    (hlength : 2 ≤ values.length)
    : greatest ∈ values.erase least := by
  obtain ⟨hleast, hle⟩ := List.min?_eq_some_iff.mp hmin
  obtain ⟨hgreatest, hge⟩ := List.max?_eq_some_iff.mp hmax
  by_cases hsame : greatest = least
  · have hpos : 0 < (values.erase least).length := by
      rw [List.length_erase_of_mem hleast]
      omega
    obtain ⟨v, hv⟩ := List.exists_mem_of_length_pos hpos
    have hmem := List.mem_of_mem_erase hv
    have hv' : v = greatest := le_antisymm (hge v hmem) (hsame ▸ hle v hmem)
    exact hv' ▸ hv
  · exact (List.mem_erase_of_ne hsame).mpr hgreatest

theorem sum_withoutExtremes (hmin : values.min? = some least)
    (hmax : values.max? = some greatest) (hlength : 2 ≤ values.length)
    : (withoutExtremes values).sum = values.sum - (least + greatest) := by
  have hleast := List.sum_erase (List.min?_eq_some_iff.mp hmin).1
  have hgreatest := List.sum_erase (mem_erase_of_length hmin hmax hlength)
  rw [withoutExtremes, hmin, hmax]
  linarith

end

-----------------------------------------------------------------------------------------
-- The mean
-----------------------------------------------------------------------------------------

/-- The number is the mean of the times without the extremes: a single time, as a number the
smaller of two, and else the quotient of the exact sum of all but the extremes by their count. -/
def IsTrimmedMean : List Float → Float → Prop
  | [], _ => False
  | [t], mean => mean = t
  | [t, u], mean => (mean == if u < t then u else t) = true
  | times, mean =>
      ∃ s : Float,
        s.isFinite = true
        ∧ value s = (withoutExtremes (times.map value)).sum
        ∧ mean = s / Float.ofNat (times.length - 2)

/-- The trimmed means of two times are the finite values that stand for the smaller number. -/
theorem isTrimmedMean_pair_iff {t u mean : Float} (ht : t.isFinite = true) (hu : u.isFinite = true)
    : IsTrimmedMean [t, u] mean ↔ mean.isFinite = true ∧ value mean = min (value t) (value u) := by
  have hsmaller : (choose (· < ·) t u).isFinite = true :=
    choose_of_both (P := fun x : Float => x.isFinite = true) ht hu
  have hequal {x : Float} (hx : x.isFinite = true)
      : IsTrimmedMean [t, u] x ↔ value x = min (value t) (value u) := by
    rw [← Point.value_choose_lt ht hu]
    exact beq_iff_value_eq hx hsmaller
  constructor
  · intro h
    have hmean : mean.isFinite = true := isFinite_of_beq h hsmaller
    exact ⟨hmean, (hequal hmean).mp h⟩
  · rintro ⟨hmean, hvalue⟩
    exact (hequal hmean).mpr hvalue

/-- The times have one trimmed mean as a number, whatever their order. -/
theorem IsTrimmedMean.beq {times others : List Float} {mean other : Float}
    (h : IsTrimmedMean times mean) (hother : IsTrimmedMean others other)
    (hperm : times.Perm others) (hfinite : ∀ t ∈ times, t.isFinite = true)
    (hcount : times.length < 2 ^ 32)
    : (mean == other) = true := by
  have hfiniteOther : ∀ t ∈ others, t.isFinite = true := fun t ht =>
    hfinite t (hperm.mem_iff.mpr ht)
  have hlength := hperm.length_eq
  rcases times with _ | ⟨t, _ | ⟨u, _ | ⟨v, times⟩⟩⟩
  · exact h.elim
  · obtain rfl : others = [t] := List.perm_singleton.mp hperm.symm
    obtain rfl : mean = t := h
    obtain rfl : other = mean := hother
    have hmean := hfinite other List.mem_cons_self
    exact (beq_iff_value_eq hmean hmean).mpr rfl
  · obtain ⟨v, w, rfl⟩ := List.length_eq_two.mp hlength.symm
    obtain ⟨hmean, hmin⟩ :=
      (isTrimmedMean_pair_iff (hfinite t (by simp)) (hfinite u (by simp))).mp h
    obtain ⟨hmean', hmin'⟩ :=
      (isTrimmedMean_pair_iff (hfiniteOther v (by simp)) (hfiniteOther w (by simp))).mp hother
    have hsame : min (value t) (value u) = min (value v) (value w) :=
      Option.some.inj (min?_eq_of_perm (hperm.map value))
    exact (beq_iff_value_eq hmean hmean').mpr (hmin.trans (hsame.trans hmin'.symm))
  · obtain ⟨s, hs, hvalue, rfl⟩ := h
    obtain ⟨a, b, c, rest, rfl⟩ : ∃ a b c rest, others = a :: b :: c :: rest := by
      rcases others with _ | ⟨a, _ | ⟨b, _ | ⟨c, rest⟩⟩⟩
      · cases hlength
      · cases hlength
      · cases hlength
      · exact ⟨a, b, c, rest, rfl⟩
    obtain ⟨s', hs', hvalue', rfl⟩ := hother
    have hsum := (withoutExtremes_perm (hperm.map value)).sum_eq
    have hpos : 0 < (t :: u :: v :: times).length - 2 := Nat.succ_pos _
    have hbound : (t :: u :: v :: times).length - 2 < 2 * normalBound := by
      simp only [normalBound]
      omega
    rw [← hlength]
    exact div_ofNat_beq hpos hbound hs hs' (hvalue.trans (hsum.trans hvalue'.symm))

namespace Point

-----------------------------------------------------------------------------------------
-- Sums of observations
-----------------------------------------------------------------------------------------

/-- The point has the running total, the count and the extremes of the times. -/
structure Sums (t : Float) (times : List Float) (p : Point) : Prop where
  time : p.time = times.foldl (· + ·) t
  count : p.count = (t :: times).length
  least : ((t :: times).map value).min? = some (value p.minTime)
  greatest : ((t :: times).map value).max? = some (value p.maxTime)

/-- The extremes are added up and taken from the total without rounding. -/
def TrimsExactly (p : Point) : Prop :=
  match p.count with
  | 0 | 1 => True
  | 2 => SubtractsExactly p.time p.maxTime
  | _ + 3 => AddsExactly p.minTime p.maxTime ∧ SubtractsExactly p.time (p.minTime + p.maxTime)

/-- What is left of an exact total is divided by what is left of the count, by the cases of the number
of times. -/
theorem Sums.isTrimmedMean {t : Float} {times : List Float} {p : Point} (h : p.Sums t times)
    (hfinite : ∀ u ∈ t :: times, u.isFinite = true) (htotal : AddsAllExactly t times)
    (hexact : p.TrimsExactly)
    : IsTrimmedMean (t :: times) p.trimmedAverage := by
  obtain ⟨htime, hcount, hmin, hmax⟩ := h
  have ht := hfinite t List.mem_cons_self
  have hvalue : value p.time = ((t :: times).map value).sum := by
    rw [htime, (htotal.foldl ht).2, List.map_cons, List.sum_cons]
  rw [TrimsExactly, hcount] at hexact
  rw [trimmedAverage, hcount]
  rcases times with _ | ⟨u, _ | ⟨v, times⟩⟩
  · exact htime
  · -- the total without the larger of two numbers is the smaller one
    have hlarger : max (value t) (value u) = value p.maxTime := Option.some.inj hmax
    have hsum : ([t, u].map value).sum = value t + value u := by simp
    refine (isTrimmedMean_pair_iff ht (hfinite u (by simp))).mpr
      ⟨hexact.finite, hexact.value_eq.trans ?_⟩
    rw [hvalue, hsum, ← hlarger, ← min_add_max, add_sub_cancel_right]
  · obtain ⟨hextremes, hrest⟩ := hexact
    have hlength : 2 ≤ ((t :: u :: v :: times).map value).length := by simp
    have hleft := sum_withoutExtremes hmin hmax hlength
    refine ⟨p.time - (p.minTime + p.maxTime), hrest.finite, ?_, rfl⟩
    rw [hrest.value_eq, hextremes.value_eq, hvalue, hleft]

variable {p : Point} {points : List Point}

/-- Merged one after the other under the sum policy, observations are summed. -/
theorem sums_foldl_absorb (hmeasured : ∀ q ∈ p :: points, q.Measured)
    (hfinite : ∀ q ∈ p :: points, q.time.isFinite = true)
    : (points.foldl (absorb .sum) p).Sums p.time (points.map time) := by
  have hnumber : ∀ q ∈ p :: points, q.time.isNaN = false := fun q hq => (hmeasured q hq).number
  have hobservation := observation_foldl_absorb_sum hmeasured
  simp only [observation, Prod.mk.injEq] at hobservation
  obtain ⟨htime, -, hcount⟩ := hobservation
  have hfastest := firstLeast_fastest hnumber
  have hslowest := firstLeast_slowest hnumber
  refine ⟨?_, ?_, ?_, ?_⟩
  · rw [htime, List.foldl_map]
  · rw [hcount, ← List.map_cons, List.length_map]
  · rw [minTime_foldl_absorb hmeasured, ← List.map_cons, List.map_map]
    refine List.min?_eq_some_iff.mpr ⟨List.mem_map_of_mem hfastest.mem, fun v hv => ?_⟩
    obtain ⟨q, hq, rfl⟩ := List.mem_map.mp hv
    exact (place_le_iff (hfinite _ hfastest.mem) (hfinite q hq)).mp (hfastest.le hq)
  · rw [maxTime_foldl_absorb hmeasured, ← List.map_cons, List.map_map]
    refine List.max?_eq_some_iff.mpr ⟨List.mem_map_of_mem hslowest.mem, fun v hv => ?_⟩
    obtain ⟨q, hq, rfl⟩ := List.mem_map.mp hv
    exact (place_le_iff (hfinite q hq) (hfinite _ hslowest.mem)).mp (hslowest.le hq)

/-- No addition or subtraction is rounded on the way from observations to their trimmed average. -/
structure Unrounded (p : Point) (points : List Point) : Prop where
  total : AddsAllExactly p.time (points.map time)
  trimmed : (points.foldlM (merge .sum) p).value.TrimsExactly

theorem Unrounded.isTrimmedMean (h : Unrounded p points)
    (hmeasured : ∀ q ∈ p :: points, q.Measured)
    (hfinite : ∀ q ∈ p :: points, q.time.isFinite = true) (hkey : ∀ q ∈ points, q.key = p.key)
    : IsTrimmedMean ((p :: points).map time)
        (points.foldlM (merge .sum) p).value.trimmedAverage := by
  have hexact := h.trimmed
  rw [value_foldlM_merge hkey] at hexact ⊢
  have htimes : ∀ t ∈ p.time :: points.map time, t.isFinite = true := by
    rw [← List.map_cons]
    exact List.forall_mem_map.mpr hfinite
  exact (sums_foldl_absorb hmeasured hfinite).isTrimmedMean htimes h.total hexact

-----------------------------------------------------------------------------------------
-- Trimmed points
-----------------------------------------------------------------------------------------

/-- A point with its mean as its only time is left alone by both ways of averaging. -/
theorem trimmed_of_pos (h : 0 < p.count)
    : let mean := p.trimmedAverage
      p.trimmed = { p with time := mean, minTime := mean, maxTime := mean, count := 1 }
      ∧ p.trimmed.averaged = p.trimmed
      ∧ p.trimmed.trimmed = p.trimmed := by
  intro mean
  have htrimmed
      : p.trimmed = { p with time := mean, minTime := mean, maxTime := mean, count := 1 } :=
    if_pos h
  refine ⟨htrimmed, ?_, ?_⟩
  · exact averaged_of_count (congrArg count htrimmed)
  · rw [trimmed_of_count (congrArg count htrimmed), htrimmed]

/-- Without rounding, the trimmed average of summed observations is their mean without the
extremes, the same number for every order that is not rounded either. As the only time of a single
observation it stays through further averaging. -/
theorem trimmed_of_unrounded (hmeasured : ∀ q ∈ p :: points, q.Measured)
    (hfinite : ∀ q ∈ p :: points, q.time.isFinite = true) (hkey : ∀ q ∈ points, q.key = p.key)
    (hcount : (p :: points).length < 2 ^ 32) (h : Unrounded p points)
    : let merged := (points.foldlM (merge .sum) p).value
      let mean := merged.trimmedAverage
      IsTrimmedMean ((p :: points).map time) mean
      ∧ (∀ q others, (q :: others).Perm (p :: points) → Unrounded q others →
          ((others.foldlM (merge .sum) q).value.trimmedAverage == mean) = true)
      ∧ merged.trimmed = { merged with time := mean, minTime := mean, maxTime := mean, count := 1 }
      ∧ merged.trimmed.averaged = merged.trimmed
      ∧ merged.trimmed.trimmed = merged.trimmed := by
  intro merged mean
  have hmean := h.isTrimmedMean hmeasured hfinite hkey
  have hmergedCount : 0 < merged.count := by
    have hsums := sums_foldl_absorb hmeasured hfinite
    rw [← value_foldlM_merge hkey] at hsums
    rw [hsums.count]
    exact Nat.succ_pos _
  refine ⟨hmean, fun q others hperm hexact => ?_, trimmed_of_pos hmergedCount⟩
  have hkeys : ∀ r ∈ p :: points, r.key = p.key := List.forall_mem_cons.mpr ⟨rfl, hkey⟩
  have hmem : ∀ r ∈ q :: others, r ∈ p :: points := fun r hr => hperm.mem_iff.mp hr
  have hother : IsTrimmedMean ((q :: others).map time)
      (others.foldlM (merge .sum) q).value.trimmedAverage := by
    refine hexact.isTrimmedMean (fun r hr => hmeasured r (hmem r hr))
      (fun r hr => hfinite r (hmem r hr)) fun r hr => ?_
    exact (hkeys r (hmem r (List.mem_cons_of_mem q hr))).trans
      (hkeys q (hmem q List.mem_cons_self)).symm
  refine hother.beq hmean (hperm.map time) ?_ ?_
  · exact List.forall_mem_map.mpr fun r hr => hfinite r (hmem r hr)
  · rw [List.length_map, hperm.length_eq]
    exact hcount

/-- One of two smallest and one of two largest times are left out, also in the reverse order. -/
theorem trimmed_of_unrounded_tied
    : let group := [repeated 3 "a", repeated 1 "", repeated 1 "b", repeated 3 "c", repeated 2 ""]
      let merged := (group.tail.foldlM (merge .sum) (repeated 3 "a")).value
      let reversed := (group.reverse.tail.foldlM (merge .sum) (repeated 2 "")).value
      merged.trimmedAverage = 2
      ∧ IsTrimmedMean [3, 1, 1, 3, 2] merged.trimmedAverage
      ∧ (reversed.trimmedAverage == merged.trimmedAverage) = true
      ∧ merged.trimmed.averaged = merged.trimmed
      ∧ merged.trimmed.trimmed = merged.trimmed := by
  intro group merged reversed
  have hmeasured : ∀ q ∈ group, q.Measured := by decide +kernel
  have hfinite : ∀ q ∈ group, q.time.isFinite = true := by decide +kernel
  have hkey : ∀ q ∈ group.tail, q.key = (repeated 3 "a").key := by decide +kernel
  have hexact : Unrounded (repeated 3 "a") group.tail := by
    refine ⟨by decide +kernel, ?_⟩
    have hcount : merged.count = 5 := by decide +kernel
    rw [TrimsExactly, hcount]
    exact ⟨by decide +kernel, by decide +kernel⟩
  have hreversed : Unrounded (repeated 2 "") group.reverse.tail := by
    refine ⟨by decide +kernel, ?_⟩
    have hcount : reversed.count = 5 := by decide +kernel
    rw [TrimsExactly, hcount]
    exact ⟨by decide +kernel, by decide +kernel⟩
  obtain ⟨hmean, hsame, -, hstays⟩ :=
    trimmed_of_unrounded hmeasured hfinite hkey (by decide) hexact
  exact ⟨by decide +kernel, hmean, hsame _ _ group.reverse_perm hreversed, hstays⟩

end Point

end BenchLog
