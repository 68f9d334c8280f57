import JointGuard.Proofs.Floating.Value

/-! # Arithmetic on numbers

The sum, the difference, the product and the quotient of two finite numbers are the exact ones,
rounded once (`value_add`, `value_sub`, `value_mul`, `value_div`).  A sum is NaN on NaN and on
infinities that cancel, a product on NaN and on zero times an infinity, and on nothing else
(`isNaN_add`, `isNaN_mul`). -/

namespace JointGuard.Floating
open Float.Model UnpackedFloat

section
variable {u v : UnpackedFloat}

theorem isRounded_self (hu : Canonical u ∧ Fits u) (hfinite : u.isFinite) :
    IsRounded u (unpackedValue u) := by
  refine ⟨hu.1, hfinite, ?_⟩
  cases u with
  | finite s m e hm =>
    rw [unpackedValue, toGrid_signFactor_mul, toGrid_natMantissa hu.1.1.le hu.1.2.1]
  | zero s => exact toGrid_zero.symm
  | _ => simp [UnpackedFloat.isFinite] at hfinite

theorem signApply_cast (s : Sign) (n : ℤ) : ((s.apply n : ℤ) : ℚ) = signFactor s * n := by
  cases s <;> simp [Sign.apply, signFactor]

theorem decreaseExponent_cast (m : ℕ) {e t : ℤ} (ht : t ≤ e) :
    ((decreaseExponent m e t).1 : ℚ) * 2 ^ t = m * 2 ^ e := by
  have hexponent : (decreaseExponent m e t).2 = t := by
    simp only [decreaseExponent]
    omega
  have hvalue := decreaseExponent_value m e t
  rwa [hexponent] at hvalue

theorem add_spec (hu : Canonical u ∧ Fits u) (hv : Canonical v ∧ Fits v) (hufin : u.isFinite)
    (hvfin : v.isFinite) :
    IsRounded (UnpackedFloat.add Format.binary64 u v) (unpackedValue u + unpackedValue v) := by
  cases u with
  | zero s =>
    cases v with
    | zero t =>
      have hsum : unpackedValue (.zero s) + unpackedValue (.zero t) = 0 := zero_add 0
      rw [hsum, UnpackedFloat.add]
      split <;> exact ⟨trivial, rfl, toGrid_zero.symm⟩
    | finite t n f hn =>
      have hsum := zero_add (unpackedValue (.finite t n f hn))
      exact hsum.symm ▸ isRounded_self hv rfl
    | _ => simp [UnpackedFloat.isFinite] at hvfin
  | finite s m e hm =>
    cases v with
    | zero t =>
      have hsum := add_zero (unpackedValue (.finite s m e hm))
      exact hsum.symm ▸ isRounded_self hu rfl
    | finite t n f hn =>
      have hsum : unpackedValue (.finite s m e hm) + unpackedValue (.finite t n f hn) =
          ((s.apply (decreaseExponent m e (min e f)).1 +
            t.apply (decreaseExponent n f (min e f)).1 : ℤ) : ℚ) * 2 ^ min e f := by
        push_cast [signApply_cast]
        rw [add_mul, mul_assoc, mul_assoc, decreaseExponent_cast m (min_le_left e f),
          decreaseExponent_cast n (min_le_right e f)]
        rfl
      rw [hsum]
      exact normalize_spec _ _ _
    | _ => simp [UnpackedFloat.isFinite] at hvfin
  | _ => simp [UnpackedFloat.isFinite] at hufin

/-- The exact product has enough bits, or an exponent below the least one. -/
theorem mul_exponent_le {s t : Sign} {m n : ℕ} {e f : ℤ} {hm : 0 < m} {hn : 0 < n}
    (hx : Canonical (.finite s m e hm)) (hy : Canonical (.finite t n f hn)) :
    e + f ≤ ulpExponent (((m * n : ℕ) : ℚ) * 2 ^ (e + f)) := by
  have hpos : m * n ≠ 0 := (Nat.mul_pos hm hn).ne'
  rw [ulpExponent_natCast_mul_zpow hpos]
  have hfull : 2 ^ 52 ≤ m ∨ 2 ^ 52 ≤ n → 52 ≤ (m * n).log2 := by
    intro h
    rw [Nat.le_log2 hpos]
    rcases h with h | h
    · exact h.trans (Nat.le_mul_of_pos_right m hn)
    · exact h.trans (Nat.le_mul_of_pos_left n hm)
  rcases hx.2.2 with h | rfl
  · have := hfull (.inl h)
    omega
  · rcases hy.2.2 with h | rfl
    · have := hfull (.inr h)
      omega
    · omega

theorem mul_spec (hu : Canonical u ∧ Fits u) (hv : Canonical v ∧ Fits v) (hufin : u.isFinite)
    (hvfin : v.isFinite) :
    IsRounded (UnpackedFloat.mul Format.binary64 u v) (unpackedValue u * unpackedValue v) := by
  cases u with
  | zero s =>
    have hproduct : unpackedValue (.zero s) * unpackedValue v = 0 := zero_mul _
    rw [hproduct]
    cases v with
    | zero t => exact ⟨trivial, rfl, toGrid_zero.symm⟩
    | finite t n f hn => exact ⟨trivial, rfl, toGrid_zero.symm⟩
    | _ => simp [UnpackedFloat.isFinite] at hvfin
  | finite s m e hm =>
    cases v with
    | zero t =>
      have hproduct : unpackedValue (.finite s m e hm) * unpackedValue (.zero t) = 0 := mul_zero _
      rw [hproduct]
      exact ⟨trivial, rfl, toGrid_zero.symm⟩
    | finite t n f hn =>
      have hproduct : unpackedValue (.finite s m e hm) * unpackedValue (.finite t n f hn) =
          signFactor (s * t) * (((m * n : ℕ) : ℚ) * 2 ^ (e + f)) := by
        rw [signFactor_mul, zpow_add₀ two_ne_zero]
        push_cast [unpackedValue]
        ring
      rw [hproduct]
      exact roundWithAccuracy_exact_spec _ (Nat.mul_pos hm hn).ne' (mul_exponent_le hu.1 hv.1)
    | _ => simp [UnpackedFloat.isFinite] at hvfin
  | _ => simp [UnpackedFloat.isFinite] at hufin

theorem le_log_div {a n : ℕ} (ha : 0 < a) (hn : 0 < n) :
    (a.log2 : ℤ) - n.log2 - 1 ≤ Int.log 2 ((a : ℚ) / n) := by
  rw [← Int.zpow_le_iff_le_log one_lt_two (by positivity), le_div_iff₀ (by positivity)]
  have hlow : (2 : ℚ) ^ (a.log2 : ℤ) ≤ a := by exact_mod_cast Nat.log2_self_le ha.ne'
  have hhigh : (n : ℚ) ≤ 2 ^ (n.log2 + 1 : ℤ) := by exact_mod_cast Nat.lt_log2_self.le
  calc ((2 : ℕ) : ℚ) ^ (a.log2 - n.log2 - 1 : ℤ) * n
      ≤ 2 ^ (a.log2 - n.log2 - 1 : ℤ) * 2 ^ (n.log2 + 1 : ℤ) := by
        push_cast
        gcongr
    _ = 2 ^ (a.log2 : ℤ) := by
        rw [← zpow_add₀ two_ne_zero]
        congr 1
        ring
    _ ≤ a := hlow

/-- The exponent at which a quotient is taken leaves it more bits than the grid keeps; where it
leaves none above the point, the quotient is below the least step of the grid. -/
theorem div_exponents {a n : ℕ} (ha : 0 < a) (hn : 0 < n) {t : ℤ}
    (ht : t ≤ max (a.log2 + t - n.log2 - 53) (-1074)) :
    t ≤ ulpExponent ((a : ℚ) / n * 2 ^ t) ∧
      Format.binary64.targetExponent (totalExponent (a / n) t) =
        ulpExponent ((a : ℚ) / n * 2 ^ t) := by
  have hquotient : (0 : ℚ) < a / n := by positivity
  have hlog := le_log_div ha hn
  rw [ulpExponent_mul_zpow hquotient, targetExponent_eq]
  refine ⟨by omega, ?_⟩
  rcases Nat.eq_zero_or_pos (a / n) with hzero | hpos
  · have hlt : a < n := (Nat.div_eq_zero_iff_lt hn).1 hzero
    have hle : a.log2 ≤ n.log2 := by
      rw [Nat.log2_eq_log_two, Nat.log2_eq_log_two]
      exact Nat.log_mono_right hlt.le
    have hsmall : Int.log 2 ((a : ℚ) / n) < 0 := by
      rw [← Int.lt_zpow_iff_log_lt one_lt_two hquotient, zpow_zero, div_lt_one (by positivity)]
      exact_mod_cast hlt
    rw [hzero, Nat.log2_zero]
    omega
  · have hone : (1 : ℚ) ≤ a / n := by
      rw [one_le_div (by positivity)]
      exact_mod_cast (Nat.div_pos_iff.1 hpos).2
    rw [Int.log_of_one_le_right 2 hone, Nat.floor_div_eq_div, Nat.log2_eq_log_two]

theorem log2_shiftLeft {m : ℕ} (hm : m ≠ 0) (k : ℕ) : (m <<< k).log2 = m.log2 + k := by
  have hlow := Nat.log2_self_le hm
  have hhigh : m < 2 ^ (m.log2 + 1) := Nat.lt_log2_self
  rw [Nat.shiftLeft_eq, Nat.log2_eq_iff (by positivity)]
  constructor
  · rw [pow_add]
    gcongr
  · rw [add_right_comm, pow_add]
    gcongr

theorem signFactor_div (s t : Sign) : signFactor (s / t) = signFactor s / signFactor t := by
  have hmul : s / t = s * t := by cases s <;> cases t <;> rfl
  rw [hmul, signFactor_mul]
  rcases signFactor_eq t with h | h <;> simp [h, div_neg]

theorem shiftLeft_mul_zpow (m : ℕ) {k : ℕ} {e f t : ℤ} (hk : (k : ℤ) = e - f - t) :
    ((m <<< k : ℕ) : ℚ) * 2 ^ t * 2 ^ f = m * 2 ^ e := by
  have hexponent : e = k + t + f := by omega
  rw [Nat.shiftLeft_eq, hexponent, zpow_add₀ two_ne_zero, zpow_add₀ two_ne_zero, zpow_natCast]
  push_cast
  ring

theorem div_finite_spec (s t : Sign) {m n : ℕ} (e f : ℤ) (hm : 0 < m) (hn : 0 < n) :
    IsRounded (UnpackedFloat.div Format.binary64 (.finite s m e hm) (.finite t n f hn))
      (unpackedValue (.finite s m e hm) / unpackedValue (.finite t n f hn)) := by
  set t₀ : ℤ := min (e - f)
    (Format.binary64.targetExponent (totalExponent m e - totalExponent n f)) with ht₀
  set k := (e - f - t₀).toNat with hk
  have hk' : (k : ℤ) = e - f - t₀ := by
    rw [hk, Int.toNat_of_nonneg]
    omega
  have hle : t₀ ≤ max ((m <<< k).log2 + t₀ - n.log2 - 53) (-1074) := by
    have hlog : ((m <<< k).log2 : ℤ) = m.log2 + k := by exact_mod_cast log2_shiftLeft hm.ne' k
    have htarget : Format.binary64.targetExponent (totalExponent m e - totalExponent n f) =
        max (m.log2 + e - (n.log2 + f) - 53) (-1074) := by
      simp only [Format.targetExponent, totalExponent, Format.mantissaBits, Format.minExponent]
      omega
    rw [htarget] at ht₀
    omega
  have hpos : 0 < m <<< k := by
    rw [Nat.shiftLeft_eq]
    positivity
  have hvalue : unpackedValue (.finite s m e hm) / unpackedValue (.finite t n f hn) =
      signFactor (s / t) * (((m <<< k : ℕ) : ℚ) / n * 2 ^ t₀) := by
    rw [signFactor_div, unpackedValue, unpackedValue, ← shiftLeft_mul_zpow m hk']
    have hn' : (n : ℚ) ≠ 0 := by positivity
    have ht : signFactor t ≠ 0 := by rcases signFactor_eq t with h | h <;> simp [h]
    field_simp
  obtain ⟨hexponent, htarget⟩ := div_exponents hpos hn hle
  rw [hvalue]
  exact roundWithAccuracy_spec _ (by positivity) (Describes.quotient _ hn) hexponent htarget

theorem div_spec (hufin : u.isFinite) (hvfin : v.isFinite) (hv : unpackedValue v ≠ 0) :
    IsRounded (UnpackedFloat.div Format.binary64 u v) (unpackedValue u / unpackedValue v) := by
  cases v with
  | zero t => exact absurd rfl hv
  | finite t n f hn =>
    cases u with
    | zero s =>
      have hquotient : unpackedValue (.zero s) / unpackedValue (.finite t n f hn) = 0 := zero_div _
      rw [hquotient]
      exact ⟨trivial, rfl, toGrid_zero.symm⟩
    | finite s m e hm => exact div_finite_spec s t e f hm hn
    | _ => simp [UnpackedFloat.isFinite] at hufin
  | _ => simp [UnpackedFloat.isFinite] at hvfin

theorem canonical_neg (hu : Canonical u ∧ Fits u) : Canonical u.neg ∧ Fits u.neg := by
  cases u <;> exact hu

theorem unpackedValue_neg (u : UnpackedFloat) : unpackedValue u.neg = -unpackedValue u := by
  cases u <;> simp [UnpackedFloat.neg, unpackedValue]

theorem canonical_abs (hu : Canonical u ∧ Fits u) : Canonical u.abs ∧ Fits u.abs := by
  cases u <;> exact hu

theorem abs_signFactor (s : Sign) : |signFactor s| = 1 := by
  rcases signFactor_eq s with h | h <;> simp [h]

theorem unpackedValue_abs (u : UnpackedFloat) : unpackedValue u.abs = |unpackedValue u| := by
  have hpositive : signFactor .positive = 1 := rfl
  cases u with
  | notANumber => simp [UnpackedFloat.abs, unpackedValue]
  | zero s => simp [UnpackedFloat.abs, unpackedValue]
  | infinity s =>
    simp [UnpackedFloat.abs, unpackedValue, hpositive, abs_mul, abs_signFactor,
      abs_of_pos beyond_pos]
  | finite s m e hm =>
    simp [UnpackedFloat.abs, unpackedValue, hpositive, abs_mul, abs_signFactor]

theorem sub_eq_add (u v : UnpackedFloat) :
    UnpackedFloat.sub Format.binary64 u v = UnpackedFloat.add Format.binary64 u v.neg := by
  cases u <;> cases v <;> try rfl
  case finite s m e hm t n f hn =>
    have happly (k : ℤ) : (-t).apply k = -t.apply k := by
      cases t
      · exact (neg_neg k).symm
      · rfl
    simp only [UnpackedFloat.sub, UnpackedFloat.add, UnpackedFloat.neg, happly, sub_eq_add_neg]

end

section
variable {u v : UnpackedFloat} {s : Sign}

@[simp] theorem unpack_pack_infinity (s : Sign) :
    (Float.Model.pack (.infinity s)).unpack = .infinity s := unpack_pack trivial trivial

@[simp] theorem unpack_pack_notANumber :
    (Float.Model.pack .notANumber).unpack = .notANumber := unpack_pack trivial trivial

theorem sign_eq_neg_iff (s t : Sign) : t = -s ↔ s ≠ t := by
  have hneg : -Sign.negative = .positive := rfl
  have hpos : -Sign.positive = .negative := rfl
  cases s <;> cases t <;> simp [hneg, hpos]

theorem isNaN_pack_add (hu : Canonical u ∧ Fits u) (hv : Canonical v ∧ Fits v) :
    (Float.Model.pack (UnpackedFloat.add Format.binary64 u v)).unpack.isNaN ↔
      u.isNaN ∨ v.isNaN ∨ ∃ s, u = .infinity s ∧ v = .infinity (-s) := by
  by_cases hboth : u.isFinite ∧ v.isFinite
  · rw [(add_spec hu hv hboth.1 hboth.2).pack_value.1]
    cases u <;> cases v <;> simp_all [UnpackedFloat.isFinite]
  · cases u <;> cases v <;> simp_all [UnpackedFloat.add, UnpackedFloat.isFinite]
    case infinity s t => by_cases h : s = t <;> simp [h, sign_eq_neg_iff]

theorem isNaN_pack_mul (hu : Canonical u ∧ Fits u) (hv : Canonical v ∧ Fits v) :
    (Float.Model.pack (UnpackedFloat.mul Format.binary64 u v)).unpack.isNaN ↔
      u.isNaN ∨ v.isNaN ∨ (∃ s t, u = .infinity s ∧ v = .zero t) ∨
        ∃ s t, u = .zero s ∧ v = .infinity t := by
  by_cases hboth : u.isFinite ∧ v.isFinite
  · rw [(mul_spec hu hv hboth.1 hboth.2).pack_value.1]
    cases u <;> cases v <;> simp_all [UnpackedFloat.isFinite, UnpackedFloat.isNaN]
  · cases u <;> cases v <;>
      simp_all [UnpackedFloat.mul, UnpackedFloat.isFinite, UnpackedFloat.isNaN]

/-- Two infinities whose sum is a number are the same. -/
theorem add_infinities {s t : Sign} (h : (Float.Model.pack (UnpackedFloat.add Format.binary64
    (.infinity s) (.infinity t))).unpack.isNaN = false) :
    s = t ∧ UnpackedFloat.add Format.binary64 (.infinity s) (.infinity t) = .infinity s := by
  by_cases heq : s = t
  · simp [UnpackedFloat.add, heq]
  · simp [UnpackedFloat.add, heq, UnpackedFloat.isNaN] at h

theorem unpack_pack_add_infinity (h : u = .infinity s ∨ v = .infinity s)
    (hnan : (Float.Model.pack (UnpackedFloat.add Format.binary64 u v)).unpack.isNaN = false) :
    (Float.Model.pack (UnpackedFloat.add Format.binary64 u v)).unpack = .infinity s := by
  rcases h with rfl | rfl
  · cases v with
    | infinity t => rw [(add_infinities hnan).2, unpack_pack_infinity]
    | notANumber => simp [UnpackedFloat.add, UnpackedFloat.isNaN] at hnan
    | _ => exact unpack_pack_infinity s
  · cases u with
    | infinity t =>
      obtain ⟨rfl, hadd⟩ := add_infinities hnan
      rw [hadd, unpack_pack_infinity]
    | notANumber => simp [UnpackedFloat.add, UnpackedFloat.isNaN] at hnan
    | _ => exact unpack_pack_infinity s

theorem sign_signFactor (s : Sign) : (SignType.sign (signFactor s) : ℚ) = signFactor s := by
  rcases signFactor_eq s with h | h <;> simp [h]

theorem value_pack_mul_infinity (hinf : ¬(u.isFinite ∧ v.isFinite))
    (hnan : (Float.Model.pack (UnpackedFloat.mul Format.binary64 u v)).unpack.isNaN = false) :
    unpackedValue (Float.Model.pack (UnpackedFloat.mul Format.binary64 u v)).unpack =
      SignType.sign (unpackedValue u * unpackedValue v) * beyond := by
  have hbeyond := sign_pos beyond_pos
  have hpow (e : ℤ) : SignType.sign ((2 : ℚ) ^ e) = 1 := sign_pos (by positivity)
  cases u <;> cases v <;>
    simp_all [UnpackedFloat.mul, UnpackedFloat.isNaN, UnpackedFloat.isFinite, unpackedValue,
      sign_mul, sign_signFactor]

end

section
variable {x y : Float}

theorem unpack_neg (x : Float) : (-x).toModel.unpack = x.toModel.unpack.neg := by
  obtain ⟨hcanonical, hfits⟩ := canonical_neg (canonical_unpack x.toModel)
  exact unpack_pack hcanonical hfits

@[simp] theorem isNaN_neg (x : Float) : (-x).isNaN = x.isNaN := by
  change (-x).toModel.unpack.isNaN = x.toModel.unpack.isNaN
  rw [unpack_neg]
  cases x.toModel.unpack <;> rfl

@[simp] theorem value_neg (x : Float) : value (-x) = -value x := by
  rw [value, unpack_neg, unpackedValue_neg, value]

@[simp] theorem isFinite_neg (x : Float) : (-x).isFinite = x.isFinite := by
  change (-x).toModel.unpack.isFinite = x.toModel.unpack.isFinite
  rw [unpack_neg]
  cases x.toModel.unpack <;> rfl

theorem unpack_abs (x : Float) : x.abs.toModel.unpack = x.toModel.unpack.abs := by
  obtain ⟨hcanonical, hfits⟩ := canonical_abs (canonical_unpack x.toModel)
  exact unpack_pack hcanonical hfits

@[simp] theorem isNaN_abs (x : Float) : x.abs.isNaN = x.isNaN := by
  change x.abs.toModel.unpack.isNaN = x.toModel.unpack.isNaN
  rw [unpack_abs]
  cases x.toModel.unpack <;> rfl

@[simp] theorem value_abs (x : Float) : value x.abs = |value x| := by
  rw [value, unpack_abs, unpackedValue_abs, value]

@[simp] theorem isFinite_abs (x : Float) : x.abs.isFinite = x.isFinite := by
  change x.abs.toModel.unpack.isFinite = x.toModel.unpack.isFinite
  rw [unpack_abs]
  cases x.toModel.unpack <;> rfl

protected theorem sub_eq_add_neg (x y : Float) : x - y = x + -y := by
  change Float.ofModel (Float.Model.pack _) = Float.ofModel (Float.Model.pack _)
  rw [sub_eq_add, ← unpack_neg]

theorem value_of_isNaN (hx : x.isNaN) : value x = 0 := by
  change x.toModel.unpack.isNaN at hx
  rw [value]
  cases h : x.toModel.unpack <;> simp_all [UnpackedFloat.isNaN, unpackedValue]

theorem unpack_eq_infinity_iff {s : Sign} :
    x.toModel.unpack = .infinity s ↔ value x = signFactor s * beyond := by
  have hbeyond := beyond_pos
  constructor
  · intro h
    rw [value, h]
    rfl
  intro h
  have habs : |value x| = beyond := by
    rcases signFactor_eq s with hs | hs <;> simp [h, hs, abs_of_pos hbeyond]
  have hfinite : ¬x.isFinite := fun hx => (abs_value_lt hx).ne habs
  change ¬x.toModel.unpack.isFinite at hfinite
  rw [value] at h habs
  cases hx : x.toModel.unpack with
  | infinity t =>
    rw [hx, unpackedValue] at h
    cases s <;> cases t <;> first
      | rfl
      | exact absurd h (by simp only [signFactor]; intro h; linarith)
  | notANumber =>
    rw [hx, unpackedValue, abs_zero] at habs
    exact absurd habs hbeyond.ne
  | _ => simp [hx, UnpackedFloat.isFinite] at hfinite

theorem abs_value_eq_beyond_iff :
    |value x| = beyond ↔ ∃ s, x.toModel.unpack = .infinity s := by
  have hbeyond := beyond_pos
  simp only [unpack_eq_infinity_iff]
  constructor
  · intro h
    rcases (abs_eq hbeyond.le).1 h with h | h
    · exact ⟨.positive, by simpa [signFactor] using h⟩
    · exact ⟨.negative, by simpa [signFactor] using h⟩
  · rintro ⟨s, h⟩
    rcases signFactor_eq s with hs | hs <;> simp [h, hs, abs_of_pos hbeyond]

theorem abs_value_of_infinite (hx : ¬x.isNaN) (hinf : ¬x.isFinite) : |value x| = beyond :=
  (abs_value_le x).eq_of_not_lt fun hlt => hinf (isFinite_iff.2 ⟨hx, hlt⟩)

theorem abs_value_eq_beyond_iff_not_isFinite (hx : ¬x.isNaN) :
    |value x| = beyond ↔ ¬x.isFinite :=
  ⟨fun h hfinite => (abs_value_lt hfinite).ne h, abs_value_of_infinite hx⟩

theorem unpack_eq_zero_iff (hx : ¬x.isNaN) : (∃ s, x.toModel.unpack = .zero s) ↔ value x = 0 := by
  have hbeyond := beyond_pos
  change ¬x.toModel.unpack.isNaN at hx
  rw [value]
  cases h : x.toModel.unpack with
  | notANumber => simp [h, UnpackedFloat.isNaN] at hx
  | infinity s => rcases signFactor_eq s with hs | hs <;> simp [unpackedValue, hs, hbeyond.ne']
  | zero s => simp [unpackedValue]
  | finite s m e hm =>
    have hpow : (2 : ℚ) ^ e ≠ 0 := by positivity
    rcases signFactor_eq s with hs | hs <;> simp [unpackedValue, hs, hm.ne', hpow]

/-- Every finite value is a whole number of least steps. -/
theorem exists_value_eq (hx : x.isFinite) : ∃ n : ℤ, value x = n * 2 ^ (-1074 : ℤ) := by
  obtain ⟨hcanonical, -⟩ := canonical_unpack x.toModel
  change x.toModel.unpack.isFinite at hx
  rw [value]
  cases h : x.toModel.unpack with
  | zero s => exact ⟨0, by simp [unpackedValue]⟩
  | finite s m e hm =>
    rw [h] at hcanonical
    have hpow := mul_zpow_eq hcanonical.2.1 (s.apply m)
    refine ⟨_, Eq.trans ?_ hpow⟩
    rw [unpackedValue, signApply_cast, mul_assoc, Int.cast_natCast]
  | _ => simp [h, UnpackedFloat.isFinite] at hx

/-- Half of a rounded distance, rounded again, does not exceed the distance. -/
theorem rounded_half_distance_le (hx : x.isFinite) (hy : y.isFinite) (h : value y ≤ value x) :
    rounded (rounded (value x - value y) / 2) ≤ value x - value y := by
  obtain ⟨n, hn⟩ := exists_value_eq hx
  obtain ⟨m, hm⟩ := exists_value_eq hy
  have hsub : value x - value y = (n - m : ℤ) * 2 ^ (-1074 : ℤ) := by
    rw [hn, hm, Int.cast_sub, sub_mul]
  have hnonneg : (0 : ℚ) ≤ (n - m : ℤ) * 2 ^ (-1074 : ℤ) := hsub ▸ sub_nonneg.2 h
  rw [hsub]
  exact rounded_half_le (by exact_mod_cast nonneg_of_mul_nonneg_left hnonneg (by positivity))

theorem rounded_value (hx : x.isFinite) : rounded (value x) = value x :=
  rounded_of_toGrid (isRounded_self (canonical_unpack x.toModel) hx).value_eq.symm
    (abs_value_lt hx).le

theorem value_zero : value 0.0 = 0 := by
  have hunpack : (0.0 : Float).toModel.unpack = .zero .positive := rfl
  rw [value, hunpack, unpackedValue]

theorem zero_le_iff : 0.0 ≤ x ↔ ¬x.isNaN ∧ 0 ≤ value x := by
  have hzero : ¬(0.0 : Float).isNaN := by decide +kernel
  rw [le_iff, value_zero]
  exact and_iff_right hzero

theorem zero_lt_iff : 0.0 < x ↔ ¬x.isNaN ∧ 0 < value x := by
  have hzero : ¬(0.0 : Float).isNaN := by decide +kernel
  rw [lt_iff, value_zero]
  exact and_iff_right hzero

theorem value_neg_lt_zero (h : 0.0 < x) : value (-x) < 0 := by
  rw [value_neg]
  exact neg_neg_of_pos (zero_lt_iff.1 h).2

/-- A sum is NaN where an operand is, and where infinities cancel. -/
theorem isNaN_add : (x + y).isNaN ↔
    x.isNaN ∨ y.isNaN ∨ |value x| = beyond ∧ value y = -value x := by
  refine (isNaN_pack_add (canonical_unpack x.toModel) (canonical_unpack y.toModel)).trans ?_
  refine or_congr_right (or_congr_right ?_)
  rw [abs_value_eq_beyond_iff, ← exists_and_right]
  refine exists_congr fun s => and_congr_right fun hs => ?_
  rw [unpack_eq_infinity_iff.1 hs, unpack_eq_infinity_iff, signFactor_neg, neg_mul]

theorem value_add (hx : x.isFinite) (hy : y.isFinite) :
    value (x + y) = rounded (value x + value y) :=
  (add_spec (canonical_unpack x.toModel) (canonical_unpack y.toModel) hx hy).pack_value.2

theorem not_isNaN_add (hx : x.isFinite) (hy : y.isFinite) : ¬(x + y).isNaN := by
  rw [isNaN_add, not_or, not_or]
  exact ⟨not_isNaN_of_isFinite hx, not_isNaN_of_isFinite hy, fun h => (abs_value_lt hx).ne h.1⟩

theorem value_add_of_infinite_right (h : ¬(x + y).isNaN) (hy : |value y| = beyond) :
    value (x + y) = value y := by
  obtain ⟨s, hs⟩ := abs_value_eq_beyond_iff.1 hy
  have hsum := unpack_pack_add_infinity (.inr hs) (Bool.not_eq_true _ ▸ h)
  rw [unpack_eq_infinity_iff.1 hs]
  exact unpack_eq_infinity_iff.1 hsum

theorem not_isNaN_sub (hx : x.isFinite) (hy : y.isFinite) : ¬(x - y).isNaN := by
  rw [Floating.sub_eq_add_neg]
  exact not_isNaN_add hx (by rwa [isFinite_neg])

theorem value_sub (hx : x.isFinite) (hy : y.isFinite) :
    value (x - y) = rounded (value x - value y) := by
  rw [Floating.sub_eq_add_neg, value_add hx (by rwa [isFinite_neg]), value_neg, sub_eq_add_neg]

theorem not_isNaN_add_left (hx : x.isFinite) (hy : ¬y.isNaN) : ¬(x + y).isNaN := by
  rw [isNaN_add, not_or, not_or]
  exact ⟨not_isNaN_of_isFinite hx, hy, fun h => (abs_value_lt hx).ne h.1⟩

theorem not_isNaN_sub_left (hx : x.isFinite) (hy : ¬y.isNaN) : ¬(x - y).isNaN := by
  rw [Floating.sub_eq_add_neg]
  exact not_isNaN_add_left hx (by rwa [isNaN_neg])

/-- Only equal numbers have the difference zero. -/
theorem value_sub_eq_zero_iff (hx : x.isFinite) (hy : ¬y.isNaN) :
    value (x - y) = 0 ↔ value x = value y := by
  by_cases hyfin : y.isFinite
  · obtain ⟨n, hn⟩ := exists_value_eq hx
    obtain ⟨m, hm⟩ := exists_value_eq hyfin
    have hsub : value x - value y = (n - m : ℤ) * 2 ^ (-1074 : ℤ) := by
      rw [hn, hm, Int.cast_sub, sub_mul]
    have hstep : (2 : ℚ) ^ (-1074 : ℤ) ≠ 0 := by positivity
    rw [value_sub hx hyfin, hsub, rounded_steps_eq_zero_iff, ← sub_eq_zero,
      ← sub_eq_zero (b := value y)]
    rw [hsub, mul_eq_zero_iff_right hstep, Int.cast_eq_zero, sub_eq_zero]
  · have hinf := abs_value_of_infinite hy hyfin
    have hneg : |value (-y)| = beyond := by rwa [value_neg, abs_neg]
    have hnan : ¬(x + -y).isNaN := not_isNaN_add_left hx (by rwa [isNaN_neg])
    rw [Floating.sub_eq_add_neg, value_add_of_infinite_right hnan hneg]
    refine iff_of_false ?_ ?_
    · intro h
      rw [h, abs_zero] at hneg
      exact beyond_pos.ne hneg
    · intro h
      exact (abs_value_lt hx).ne (h ▸ hinf)

/-- Adding a number that is not below `bound` leads no lower than adding `bound`. -/
theorem rounded_le_value_add (hx : x.isFinite) (hy : ¬y.isNaN) {bound : ℚ}
    (hbound : -beyond < bound) (h : bound ≤ value y) :
    rounded (value x + bound) ≤ value (x + y) := by
  by_cases hyfin : y.isFinite
  · rw [value_add hx hyfin]
    exact rounded_mono (by linarith)
  · have hinf := abs_value_of_infinite hy hyfin
    rw [value_add_of_infinite_right (not_isNaN_add_left hx hy) hinf]
    rcases (abs_eq beyond_pos.le).1 hinf with hvalue | hvalue
    · exact hvalue ▸ rounded_le_beyond _
    · linarith

/-- A product is NaN where a factor is, and where an infinity meets zero. -/
theorem isNaN_mul : (x * y).isNaN ↔ x.isNaN ∨ y.isNaN ∨
    |value x| = beyond ∧ value y = 0 ∨ value x = 0 ∧ |value y| = beyond := by
  by_cases hx : x.isNaN
  · exact iff_of_true ((isNaN_pack_mul (canonical_unpack x.toModel)
      (canonical_unpack y.toModel)).2 (.inl hx)) (.inl hx)
  by_cases hy : y.isNaN
  · exact iff_of_true ((isNaN_pack_mul (canonical_unpack x.toModel)
      (canonical_unpack y.toModel)).2 (.inr (.inl hy))) (.inr (.inl hy))
  refine (isNaN_pack_mul (canonical_unpack x.toModel) (canonical_unpack y.toModel)).trans ?_
  refine or_congr_right (or_congr_right (or_congr ?_ ?_))
  · rw [abs_value_eq_beyond_iff, ← unpack_eq_zero_iff hy]
    simp only [exists_and_left, exists_and_right]
  · rw [abs_value_eq_beyond_iff, ← unpack_eq_zero_iff hx]
    simp only [exists_and_left, exists_and_right]

theorem value_mul (hx : x.isFinite) (hy : y.isFinite) :
    value (x * y) = rounded (value x * value y) :=
  (mul_spec (canonical_unpack x.toModel) (canonical_unpack y.toModel) hx hy).pack_value.2

theorem not_isNaN_mul (hx : x.isFinite) (hy : y.isFinite) : ¬(x * y).isNaN := by
  rw [isNaN_mul, not_or, not_or, not_or]
  exact ⟨not_isNaN_of_isFinite hx, not_isNaN_of_isFinite hy, fun h => (abs_value_lt hx).ne h.1,
    fun h => (abs_value_lt hy).ne h.2⟩

theorem not_isNaN_mul_left (hx : ¬x.isNaN) (hy : y.isFinite) (hne : value y ≠ 0) :
    ¬(x * y).isNaN := by
  rw [isNaN_mul, not_or, not_or, not_or]
  exact ⟨hx, not_isNaN_of_isFinite hy, fun h => hne h.2, fun h => (abs_value_lt hy).ne h.2⟩

theorem not_isNaN_mul_right (hx : x.isFinite) (hne : value x ≠ 0) (hy : ¬y.isNaN) :
    ¬(x * y).isNaN := by
  rw [isNaN_mul, not_or, not_or, not_or]
  exact ⟨not_isNaN_of_isFinite hx, hy, fun h => (abs_value_lt hx).ne h.1, fun h => hne h.1⟩

theorem value_mul_of_infinite (h : ¬(x * y).isNaN) (hinf : ¬(x.isFinite ∧ y.isFinite)) :
    value (x * y) = SignType.sign (value x * value y) * beyond :=
  value_pack_mul_infinity hinf (Bool.not_eq_true _ ▸ h)

/-- The value of a product is that of NaN, the rounded product, or that of an infinity. -/
theorem value_mul_cases (x y : Float) : value (x * y) = 0 ∨
    value (x * y) = rounded (value x * value y) ∨
      value (x * y) = SignType.sign (value x * value y) * beyond := by
  by_cases hnan : (x * y).isNaN
  · exact .inl (value_of_isNaN hnan)
  by_cases hfinite : x.isFinite ∧ y.isFinite
  · exact .inr (.inl (value_mul hfinite.1 hfinite.2))
  · exact .inr (.inr (value_mul_of_infinite hnan hfinite))

theorem value_mul_nonneg (h : 0 ≤ value x * value y) : 0 ≤ value (x * y) := by
  have hbeyond := beyond_pos
  rcases value_mul_cases x y with hvalue | hvalue | hvalue
  · exact hvalue.ge
  · exact hvalue ▸ rounded_nonneg h
  · rw [hvalue]
    rcases h.eq_or_lt with heq | hlt
    · simp [← heq]
    · simpa [sign_pos hlt] using hbeyond.le

theorem value_mul_nonpos (h : value x * value y ≤ 0) : value (x * y) ≤ 0 := by
  have hbeyond := beyond_pos
  rcases value_mul_cases x y with hvalue | hvalue | hvalue
  · exact hvalue.le
  · exact hvalue ▸ rounded_nonpos h
  · rw [hvalue]
    rcases h.eq_or_lt with heq | hlt
    · simp [heq]
    · simpa [sign_neg hlt] using hbeyond.le

theorem not_isNaN_div (hx : x.isFinite) (hy : y.isFinite) (hzero : value y ≠ 0) :
    ¬(x / y).isNaN := by
  have h := div_spec hx hy hzero
  exact Bool.not_eq_true _ ▸ h.pack_value.1

theorem value_div (hx : x.isFinite) (hy : y.isFinite) (hzero : value y ≠ 0) :
    value (x / y) = rounded (value x / value y) :=
  (div_spec hx hy hzero).pack_value.2

theorem value_ofNat (n : ℕ) {x : Float}
    (hx : x = .ofModel (Float.Model.pack (UnpackedFloat.ofNat Format.binary64 n))) :
    ¬x.isNaN ∧ value x = rounded n := by
  have h := (normalize_spec n 0 .positive).pack_value
  rw [zpow_zero, mul_one] at h
  subst hx
  exact ⟨Bool.not_eq_true _ ▸ h.1, h.2⟩

theorem not_isNaN_uint64 (n : UInt64) : ¬n.toFloat.isNaN := (value_ofNat n.toNat rfl).1

theorem value_uint64 (n : UInt64) : value n.toFloat = rounded n.toNat :=
  (value_ofNat n.toNat rfl).2

theorem not_isNaN_uint32 (n : UInt32) : ¬n.toFloat.isNaN := (value_ofNat n.toNat rfl).1

theorem value_uint32 (n : UInt32) : value n.toFloat = rounded n.toNat :=
  (value_ofNat n.toNat rfl).2

theorem mul_finite (s t : Sign) {m n : ℕ} (e f : ℤ) (hm : 0 < m) (hn : 0 < n) :
    UnpackedFloat.mul Format.binary64 (.finite s m e hm) (.finite t n f hn) =
      roundWithAccuracy Format.binary64 (s * t) (m * n) (e + f) .exact := rfl

theorem ofScientific_whole {n : ℕ} (hn : n ≠ 0) :
    IsRounded (UnpackedFloat.ofScientific Format.binary64 n 0) n := by
  have hbits : Format.binary64.mantissaBits = 53 := rfl
  have hhigh : ¬(0 : ℤ) > 2 ^ Format.binary64.exponentBits :=
    not_lt.2 (by positivity)
  have hlow : ¬(0 : ℤ) < -(2 ^ Format.binary64.exponentBits + (n.log2 : ℤ)) :=
    not_lt.2 (neg_nonpos.2 (by positivity))
  have hpos : n * 2 ^ 53 ≠ 0 := by simp [hn]
  have hvalue : ((n * 2 ^ 53 : ℕ) : ℚ) * 2 ^ (-53 : ℤ) = n := by
    push_cast
    rw [zpow_neg]
    field_simp
    norm_num
  have he : (-53 : ℤ) ≤ ulpExponent (((n * 2 ^ 53 : ℕ) : ℚ) * 2 ^ (-53 : ℤ)) := by
    have hlog : 53 ≤ (n * 2 ^ 53).log2 := by
      rw [Nat.le_log2 hpos]
      exact Nat.le_mul_of_pos_left _ (Nat.pos_of_ne_zero hn)
    rw [ulpExponent_natCast_mul_zpow hpos]
    omega
  have hspec := roundWithAccuracy_exact_spec .positive hpos he
  rw [hvalue, signFactor, one_mul] at hspec
  rw [UnpackedFloat.ofScientific, dif_neg hn, if_neg hhigh, if_neg hlow, if_pos le_rfl, mul_finite]
  have hsign : Sign.positive * Sign.positive = Sign.positive := rfl
  simpa [hbits, hsign, Nat.shiftLeft_eq] using hspec

theorem value_firstPower : value Float.exactlyRepresentablePowersOfTen[0] = 1 := by
  have hunpack : (Float.exactlyRepresentablePowersOfTen[0]).toModel.unpack =
      .finite .positive (2 ^ 52) (-52) (by norm_num) := rfl
  rw [value_of_unpack hunpack]
  norm_num

theorem value_natCast (n : ℕ) : ¬(Float.ofNat n).isNaN ∧ value (Float.ofNat n) = rounded n := by
  change ¬(Float.ofScientific n false 0).isNaN ∧ value (Float.ofScientific n false 0) = rounded n
  rw [Float.ofScientific]
  split
  next hsmall =>
    have hmod : n.toUInt64.toNat = n := Nat.mod_eq_of_lt (hsmall.1.trans (by norm_num))
    have hvalue : value n.toUInt64.toFloat = n := by
      rw [value_uint64, hmod, rounded_natCast hsmall.1.le]
    have hfinite : n.toUInt64.toFloat.isFinite := by
      refine isFinite_of_abs_le (e := 53) (not_isNaN_uint64 _) (by norm_num) ?_
      rw [hvalue, Nat.abs_cast]
      exact_mod_cast hsmall.1.le
    have hone : Float.exactlyRepresentablePowersOfTen[0].isFinite := rfl
    have hproduct := value_mul hfinite hone
    rw [hvalue, value_firstPower, mul_one] at hproduct
    exact ⟨not_isNaN_mul hfinite hone, hproduct⟩
  next hlarge =>
    have hn : n ≠ 0 := by
      rintro rfl
      exact hlarge ⟨by norm_num, by norm_num⟩
    have h := (ofScientific_whole hn).pack_value
    exact ⟨Bool.not_eq_true _ ▸ h.1, h.2⟩

/-- An integer becomes the number that is nearest to it. -/
theorem value_intCast (n : ℤ) : ¬(Float.ofInt n).isNaN ∧ value (Float.ofInt n) = rounded n := by
  cases n with
  | ofNat n => exact value_natCast n
  | negSucc n =>
    have h := value_natCast (n + 1)
    change ¬(-Float.ofNat (n + 1)).isNaN ∧ value (-Float.ofNat (n + 1)) = _
    rw [isNaN_neg, value_neg, h.2, ← rounded_neg]
    exact ⟨h.1, by push_cast; rfl⟩

end

/-- The number that is nearest to an integer; zero is the one without a sign. -/
structure IsNearest (n : ℤ) (x : Float) : Prop where
  not_isNaN : ¬x.isNaN
  value_eq : value x = rounded n
  zero : n = 0 → x = 0.0

theorem isNearest_ofInt (n : ℤ) : IsNearest n (Float.ofInt n) where
  not_isNaN := (value_intCast n).1
  value_eq := (value_intCast n).2
  zero := by
    rintro rfl
    rfl

theorem IsNearest.unique {n : ℤ} {x y : Float} (hx : IsNearest n x) (hy : IsNearest n y) :
    x = y := by
  by_cases hn : n = 0
  · rw [hx.zero hn, hy.zero hn]
  · have hsame : x == y :=
      beq_iff.2 ⟨hx.not_isNaN, hy.not_isNaN, hx.value_eq.trans hy.value_eq.symm⟩
    exact eq_of_beq hsame (hx.value_eq ▸ mt rounded_intCast_eq_zero_iff.1 hn)

end JointGuard.Floating
