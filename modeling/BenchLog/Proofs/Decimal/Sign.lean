import BenchLog.Proofs.Decimal.Arithmetic

/-! Signs of floating-point values.
Rounding and packing may lose a sign, in a zero or in what is no number, but never turn it. A
product, a quotient or a difference with a sign therefore has the one of the exact result.
-/

open Float.Model Float.Model.UnpackedFloat

namespace BenchLog.Decimal

-----------------------------------------------------------------------------------------
-- Signs of unpacked parts
-----------------------------------------------------------------------------------------

/-- The sign of what is a number and not zero. -/
def unpackedSign? : UnpackedFloat → Option Sign
  | .infinity s => some s
  | .finite s _ _ _ => some s
  | _ => none

def sign? (x : Float) : Option Sign :=
  unpackedSign? x.toModel.unpack

section

variable {s t : Sign} {u v : UnpackedFloat}

theorem eq_of_unpackedSign?_packComponents {e : BitVec 11} {m : BitVec 52}
    (h : unpackedSign? (UnpackedFloat.unpack Format.binary64 (packComponents _ s e m)) = some t)
    : t = s := by
  unfold UnpackedFloat.unpack at h
  simp only [unpackSign_packComponents, Sign.ofBitVec_toBitVec] at h
  split at h
  · split at h
    · exact (Option.some.inj h).symm
    · cases h
  · split at h
    · split at h
      · cases h
      · exact (Option.some.inj h).symm
    · exact (Option.some.inj h).symm

theorem exists_packComponents (s : Sign) {m : Nat} (e : Int) (hm : 0 < m)
    : ∃ field fraction,
        UnpackedFloat.pack Format.binary64 (.finite s m e hm) =
          packComponents Format.binary64 s field fraction := by
  rw [UnpackedFloat.pack.eq_def]
  dsimp only
  split
  · exact ⟨_, _, rfl⟩
  · split
    · exact ⟨_, _, rfl⟩
    · exact ⟨_, _, rfl⟩

/-- Packing turns no sign, by the cases of what is packed. -/
theorem unpackedSign?_eq_of_pack (h : unpackedSign? (Float.Model.pack u).unpack = some t)
    : unpackedSign? u = some t := by
  cases u with
  | notANumber =>
      have hcanonical : Canonical .notANumber := trivial
      rwa [unpack_pack hcanonical] at h
  | zero s =>
      have hcanonical : Canonical (.zero s) := trivial
      rwa [unpack_pack hcanonical] at h
  | infinity s =>
      have hcanonical : Canonical (.infinity s) := trivial
      rwa [unpack_pack hcanonical] at h
  | finite s m e hm =>
      obtain ⟨field, fraction, hpack⟩ := exists_packComponents s e hm
      have hunpack
          : (Float.Model.pack (.finite s m e hm)).unpack =
              UnpackedFloat.unpack Format.binary64
                (packComponents Format.binary64 s field fraction) :=
        congrArg (UnpackedFloat.unpack Format.binary64) hpack
      rw [hunpack] at h
      rw [eq_of_unpackedSign?_packComponents h, unpackedSign?]

theorem eq_of_unpackedSign?_roundWithAccuracy {m : Nat} {e : Int} {a : Accuracy}
    (h : unpackedSign? (roundWithAccuracy Format.binary64 s m e a) = some t)
    : t = s := by
  unfold roundWithAccuracy at h
  dsimp only at h
  split at h
  · cases h
  · exact (Option.some.inj h).symm

/-- A product has the sign of its first factor if the other one is positive. -/
theorem unpackedSign?_eq_of_mul (hv : unpackedSign? v = some .positive)
    (h : unpackedSign? (UnpackedFloat.mul Format.binary64 u v) = some t)
    : unpackedSign? u = some t := by
  have hsign : ∀ s : Sign, s * .positive = s := by
    intro s
    cases s <;> rfl
  cases v with
  | notANumber | zero => cases hv
  | infinity r =>
      cases hv
      cases u with
      | notANumber | zero => cases h
      | infinity s => exact hsign s ▸ h
      | finite s m e hm => exact hsign s ▸ h
  | finite r n f hn =>
      cases hv
      cases u with
      | notANumber | zero => cases h
      | infinity s => exact hsign s ▸ h
      | finite s m e hm =>
          rw [eq_of_unpackedSign?_roundWithAccuracy h, hsign s, unpackedSign?]

/-- A quotient has the sign of the dividend if the divisor is positive. -/
theorem unpackedSign?_eq_of_div (hv : unpackedSign? v = some .positive)
    (h : unpackedSign? (UnpackedFloat.div Format.binary64 u v) = some t)
    : unpackedSign? u = some t := by
  have hsign : ∀ s : Sign, s / .positive = s := by
    intro s
    cases s <;> rfl
  cases v with
  | notANumber | zero => cases hv
  | infinity r =>
      cases hv
      -- a quotient by an infinity is zero or no number
      cases u with
      | notANumber | zero | infinity | finite => cases h
  | finite r n f hn =>
      cases hv
      cases u with
      | notANumber | zero => cases h
      | infinity s => exact hsign s ▸ h
      | finite s m e hm =>
          rw [eq_of_unpackedSign?_roundWithAccuracy h, hsign s, unpackedSign?]

theorem eq_of_unpackedSign?_round {m : Nat} {e : Int}
    (h : unpackedSign? (UnpackedFloat.round Format.binary64 s m e) = some t)
    : t = s :=
  eq_of_unpackedSign?_roundWithAccuracy h

/-- A sum in units of some exponent has the sign of its significand. -/
theorem sign_of_normalize {k e : Int} {zero : Sign}
    (h : unpackedSign? (UnpackedFloat.normalize Format.binary64 k e zero) = some t)
    : (t = .positive → 0 < k) ∧ (t = .negative → k < 0) := by
  unfold UnpackedFloat.normalize at h
  split at h
  · next hk =>
      obtain rfl := eq_of_unpackedSign?_round h
      exact ⟨(nomatch ·), fun _ => compare_lt_iff_lt.mp hk⟩
  · cases h
  · next hk =>
      obtain rfl := eq_of_unpackedSign?_round h
      exact ⟨fun _ => compare_gt_iff_gt.mp hk, (nomatch ·)⟩

end

-----------------------------------------------------------------------------------------
-- Signs of values
-----------------------------------------------------------------------------------------

variable {x y z : Float} {t : Sign}

theorem zero_lt_iff_sign?
    : 0 < x ↔ sign? x = some .positive := by
  rw [lt_iff_unpack_lt, unpack_zero, sign?]
  cases x.toModel.unpack with
  | notANumber | zero => simp [UnpackedFloat.lt, UnpackedFloat.compare, unpackedSign?]
  | infinity s | finite s =>
      cases s <;> simp [UnpackedFloat.lt, UnpackedFloat.compare, unpackedSign?]

theorem lt_zero_iff_sign?
    : x < 0 ↔ sign? x = some .negative := by
  rw [lt_iff_unpack_lt, unpack_zero, sign?]
  cases x.toModel.unpack with
  | notANumber | zero => simp [UnpackedFloat.lt, UnpackedFloat.compare, unpackedSign?]
  | infinity s | finite s =>
      cases s <;> simp [UnpackedFloat.lt, UnpackedFloat.compare, unpackedSign?]

/-- A product with a positive value has the sign of the other factor. -/
theorem sign?_eq_of_mul (hy : 0 < y) (h : sign? (x * y) = some t)
    : sign? x = some t :=
  unpackedSign?_eq_of_mul (zero_lt_iff_sign?.mp hy) (unpackedSign?_eq_of_pack h)

/-- A quotient by a positive value has the sign of the dividend. -/
theorem sign?_eq_of_div (hy : 0 < y) (h : sign? (x / y) = some t)
    : sign? x = some t :=
  unpackedSign?_eq_of_div (zero_lt_iff_sign?.mp hy) (unpackedSign?_eq_of_pack h)

/-- The positive infinity exceeds what is finite. -/
theorem lt_of_not_isFinite (hx : x.isFinite = true) (hxpos : 0 < x) (hypos : 0 < y)
    (hy : ¬ y.isFinite = true)
    : x < y := by
  obtain ⟨m, e, hm, hxu, -⟩ := exists_parts hx hxpos
  rw [lt_iff_unpack_lt, hxu, unpack_of_not_isFinite hypos hy]
  rfl

/-- The sign of the difference of two positive values tells which one is greater. -/
theorem sign_of_sub (hx : 0 < x) (hy : 0 < y) (h : sign? (x - y) = some t)
    : (t = .positive → y < x) ∧ (t = .negative → x < y) := by
  have hparts
      : unpackedSign?
            (UnpackedFloat.sub Format.binary64 x.toModel.unpack y.toModel.unpack) = some t :=
    unpackedSign?_eq_of_pack h
  by_cases hxfinite : x.isFinite = true
  · by_cases hyfinite : y.isFinite = true
    · obtain ⟨m, n, e, hxv, hyv, -, hdiff⟩ := exists_aligned hxfinite hx hyfinite hy
      have he := two_zpow_pos e
      rw [sign?, hdiff] at h
      obtain ⟨hpos, hneg⟩ := sign_of_normalize (unpackedSign?_eq_of_pack h)
      rw [lt_iff_value_lt hyfinite hxfinite, lt_iff_value_lt hxfinite hyfinite, hxv, hyv,
        mul_lt_mul_iff_left₀ he, mul_lt_mul_iff_left₀ he, Nat.cast_lt, Nat.cast_lt]
      refine ⟨fun ht => ?_, fun ht => ?_⟩
      · have := hpos ht
        omega
      · have := hneg ht
        omega
    · have hlt := lt_of_not_isFinite hxfinite hx hy hyfinite
      obtain ⟨m, e, hm, hxu, -⟩ := exists_parts hxfinite hx
      rw [hxu, unpack_of_not_isFinite hy hyfinite] at hparts
      obtain rfl := Option.some.inj hparts
      exact ⟨(nomatch ·), fun _ => hlt⟩
  · rw [unpack_of_not_isFinite hx hxfinite] at hparts
    by_cases hyfinite : y.isFinite = true
    · have hlt := lt_of_not_isFinite hyfinite hy hx hxfinite
      obtain ⟨n, f, hn, hyu, -⟩ := exists_parts hyfinite hy
      rw [hyu] at hparts
      obtain rfl := Option.some.inj hparts
      exact ⟨fun _ => hlt, (nomatch ·)⟩
    · rw [unpack_of_not_isFinite hy hyfinite] at hparts
      cases hparts

theorem Canonical.neg {u : UnpackedFloat} (h : Canonical u)
    : Canonical u.neg := by
  cases u with
  | notANumber | infinity | zero => trivial
  | finite s m e hm => exact h

theorem unpack_neg (x : Float)
    : (-x).toModel.unpack = x.toModel.unpack.neg :=
  unpack_pack (canonical_unpack _).neg

theorem neg_lt_zero_of_zero_lt (hx : 0 < x)
    : -x < 0 := by
  rw [zero_lt_iff_sign?, sign?] at hx
  rw [lt_zero_iff_sign?, sign?, unpack_neg]
  cases hu : x.toModel.unpack with
  | notANumber | zero =>
      rw [hu] at hx
      cases hx
  | infinity s | finite s =>
      rw [hu] at hx
      cases hx
      rfl

end BenchLog.Decimal
