import JointGuard.Proofs.Floating.Rounding

/-! # Unpacked numbers

A number is computed with in unpacked form: a sign, a whole mantissa and an exponent.  Each has a
rational value; the infinities stand at `beyond`.  Rounding an unpacked number is `toGrid` on its
value (`roundWithAccuracy_spec`, `normalize_spec`), and what packing adds to that is the overflow to
infinity. -/

namespace JointGuard.Floating
open Float.Model UnpackedFloat

/-- The mantissa is the whole part of a number; the round bit says whether the rest reaches a half,
the sticky bit whether it is neither nothing nor a half. -/
structure Describes (em : ExtendedMantissa) (y : ℚ) : Prop where
  floor_eq : ⌊y⌋ = em.mantissa
  round_iff : em.roundBit ↔ 1 ≤ 2 * (y - em.mantissa)
  sticky_iff : em.stickyBit ↔ y ≠ em.mantissa ∧ 2 * (y - em.mantissa) ≠ 1

namespace Describes

variable {em : ExtendedMantissa} {y : ℚ}

theorem le (h : Describes em y) : (em.mantissa : ℚ) ≤ y := by
  have := Int.floor_le y
  rw [h.floor_eq] at this
  exact_mod_cast this

theorem lt (h : Describes em y) : y < em.mantissa + 1 := by
  have := Int.lt_floor_add_one y
  rw [h.floor_eq] at this
  exact_mod_cast this

theorem exact (m : ℕ) : Describes (.ofMantissaAndAccuracy m .exact) m where
  floor_eq := by simp [ExtendedMantissa.ofMantissaAndAccuracy]
  round_iff := by simp [ExtendedMantissa.ofMantissaAndAccuracy]
  sticky_iff := by simp [ExtendedMantissa.ofMantissaAndAccuracy]

/-- A division with remainder, with the accuracy that the remainder gives. -/
theorem quotient (m : ℕ) {d : ℕ} (hd : 0 < d) :
    Describes (.ofMantissaAndAccuracy (m / d) (accuracyOfFraction (m % d) d)) (m / d) := by
  have hdq : (0 : ℚ) < d := by exact_mod_cast hd
  have hfloor : ⌊(m : ℚ) / d⌋ = (m / d : ℕ) := by
    simpa using Rat.floor_intCast_div_natCast m d
  have hrest : (m : ℚ) / d - (m / d : ℕ) = (m % d : ℕ) / d := by
    have : (d : ℚ) * (m / d : ℕ) + (m % d : ℕ) = m := by exact_mod_cast Nat.div_add_mod m d
    field_simp
    linarith
  have hhalf : 1 ≤ 2 * ((m : ℚ) / d - (m / d : ℕ)) ↔ d ≤ 2 * (m % d) := by
    rw [hrest, ← mul_div_assoc, one_le_div hdq]
    norm_cast
  have htie : 2 * ((m : ℚ) / d - (m / d : ℕ)) = 1 ↔ 2 * (m % d) = d := by
    rw [hrest, ← mul_div_assoc, div_eq_one_iff_eq hdq.ne']
    norm_cast
  have hzero : (m : ℚ) / d = (m / d : ℕ) ↔ m % d = 0 := by
    rw [← sub_eq_zero, hrest, div_eq_zero_iff, or_iff_left hdq.ne']
    norm_cast
  have hmantissa : (ExtendedMantissa.ofMantissaAndAccuracy (m / d)
      (accuracyOfFraction (m % d) d)).mantissa = m / d := by
    rw [accuracyOfFraction]
    split
    · rfl
    · cases compare (2 * (m % d)) d <;> rfl
  refine ⟨by rw [hmantissa, hfloor], ?_, ?_⟩
  · rw [hmantissa, hhalf]
    cases ho : compare (2 * (m % d)) d <;>
      simp only [compare_lt_iff_lt, compare_eq_iff_eq, compare_gt_iff_gt] at ho <;>
      simp [accuracyOfFraction, ExtendedMantissa.ofMantissaAndAccuracy] <;> grind
  · rw [hmantissa, Ne, Ne, hzero, htie]
    cases ho : compare (2 * (m % d)) d <;>
      simp only [compare_lt_iff_lt, compare_eq_iff_eq, compare_gt_iff_gt] at ho <;>
      simp [accuracyOfFraction, ExtendedMantissa.ofMantissaAndAccuracy] <;> grind

/-- Reading off the residual bits rounds to the nearest, a tie to the even mantissa. -/
theorem roundedMantissa_eq (h : Describes em y) : (em.roundedMantissa : ℤ) = halfEven y := by
  obtain ⟨hfloor, hround, hsticky⟩ := h
  obtain ⟨m, r, s⟩ := em
  simp only at hfloor hround hsticky
  rw [halfEven, hfloor]
  push_cast
  cases r <;> cases s <;>
    simp_all only [ExtendedMantissa.roundedMantissa, ExtendedMantissa.accuracy,
      Accuracy.roundToNearestEven] <;> split_ifs <;> grind

/-- A shift halves the number: the round bit takes the bit that leaves the mantissa, the sticky bit
what was there before. -/
theorem shiftRightOne (h : Describes em y) : Describes em.shiftRightOne (y / 2) := by
  have hle := h.le
  have hlt := h.lt
  obtain ⟨-, hround, hsticky⟩ := h
  obtain ⟨m, r, s⟩ := em
  simp only at hle hlt hround hsticky
  have hrest : (r || s) ↔ y ≠ m := by
    rw [Bool.or_eq_true, hround, hsticky]
    grind
  obtain ⟨q, hm | hm⟩ := m.even_or_odd'
  all_goals
    have hcast := congrArg (Nat.cast (R := ℚ)) hm
    push_cast at hcast
    have hdiv : m / 2 = q := by omega
    have hmod : m % 2 = m - 2 * q := by omega
    have hfloor : ⌊y / 2⌋ = (q : ℤ) := by
      rw [Int.floor_eq_iff]
      push_cast
      constructor <;> linarith
    constructor <;>
      simp only [ExtendedMantissa.shiftRightOne, hdiv, hmod, hfloor, hrest] <;> grind

theorem shiftRight (h : Describes em y) (n : ℕ) : Describes (em >>> n) (y / 2 ^ n) := by
  change Describes (n.repeat ExtendedMantissa.shiftRightOne em) (y / 2 ^ n)
  induction n with
  | zero => simpa [Nat.repeat] using h
  | succ n ih =>
    rw [Nat.repeat, pow_succ, ← div_div]
    exact ih.shiftRightOne

end Describes

def signFactor : Sign → ℚ
  | .negative => -1
  | .positive => 1

@[simp] theorem signFactor_neg (s : Sign) : signFactor (-s) = -signFactor s := by
  cases s
  · exact (neg_neg (1 : ℚ)).symm
  · rfl

@[simp] theorem signFactor_mul (s t : Sign) :
    signFactor (s * t) = signFactor s * signFactor t := by
  cases s <;> cases t
  · exact (neg_one_mul (-1 : ℚ)).trans (neg_neg 1) |>.symm
  · exact (mul_one (-1 : ℚ)).symm
  · exact (one_mul (-1 : ℚ)).symm
  · exact (one_mul (1 : ℚ)).symm

theorem signFactor_eq (s : Sign) : signFactor s = 1 ∨ signFactor s = -1 := by
  cases s <;> simp [signFactor]

/-- The value of an unpacked number; what is no number has none and counts as zero. -/
def unpackedValue : UnpackedFloat → ℚ
  | .notANumber => 0
  | .infinity s => signFactor s * beyond
  | .zero _ => 0
  | .finite s m e _ => signFactor s * (m * 2 ^ e)

/-- The form in which a number can be packed, if its exponent is not too large. -/
def Canonical : UnpackedFloat → Prop
  | .finite _ m e _ => m < 2 ^ 53 ∧ -1074 ≤ e ∧ (2 ^ 52 ≤ m ∨ e = -1074)
  | _ => True

/-- A rational rounded to the grid, before it is packed. -/
structure IsRounded (u : UnpackedFloat) (x : ℚ) : Prop where
  canonical : Canonical u
  isFinite : u.isFinite
  value_eq : unpackedValue u = toGrid x

theorem targetExponent_eq (m : ℕ) (e : ℤ) :
    Format.binary64.targetExponent (totalExponent m e) = max (m.log2 + e - 52) (-1074) := by
  simp only [Format.targetExponent, totalExponent, Format.mantissaBits, Format.minExponent]
  omega

/-- A mantissa that rounding has carried over to 54 bits is shifted once more; any other stays. -/
theorem shiftToTargetExponent_carry {m : ℕ} {e : ℤ} (hm : m ≤ 2 ^ 53) (he : -1074 ≤ e) :
    shiftToTargetExponent Format.binary64 m e .exact =
      if m = 2 ^ 53 then (⟨2 ^ 52, false, false⟩, e + 1) else (⟨m, false, false⟩, e) := by
  rw [shiftToTargetExponent, targetExponent_eq]
  by_cases hcarry : m = 2 ^ 53
  · subst hcarry
    have hone : (max ((2 ^ 53 : ℕ).log2 + e - 52 : ℤ) (-1074) - e).toNat = 1 := by
      rw [Nat.log2_two_pow]
      omega
    rw [if_pos rfl, shiftToExponent, hone]
    rfl
  · have hlog : m.log2 ≤ 52 := by
      rcases Nat.eq_zero_or_pos m with rfl | hpos
      · simp
      · have := (Nat.log2_lt hpos.ne').2 (show m < 2 ^ 53 by omega)
        omega
    have hzero : (max (m.log2 + e - 52 : ℤ) (-1074) - e).toNat = 0 := by omega
    rw [if_neg hcarry, shiftToExponent, hzero]
    simp [ExtendedMantissa.ofMantissaAndAccuracy, HShiftRight.hShiftRight, Nat.repeat]

section
variable {m : ℕ} {e : ℤ} {accuracy : Accuracy} {y : ℚ}

/-- The first shift leaves the bits above the grid. -/
theorem first_shift (hdesc : Describes (.ofMantissaAndAccuracy m accuracy) y)
    (he : e ≤ ulpExponent (y * 2 ^ e))
    (htarget : Format.binary64.targetExponent (totalExponent m e) = ulpExponent (y * 2 ^ e)) :
    ((shiftToTargetExponent Format.binary64 m e accuracy).1.roundedMantissa : ℤ) =
        halfEven (y * 2 ^ e / ulp (y * 2 ^ e)) ∧
      (shiftToTargetExponent Format.binary64 m e accuracy).2 = ulpExponent (y * 2 ^ e) := by
  set t := ulpExponent (y * 2 ^ e) with ht
  have hshift : ((t - e).toNat : ℤ) = t - e := Int.toNat_of_nonneg (by omega)
  have hscale : y / 2 ^ (t - e).toNat = y * 2 ^ e / ulp (y * 2 ^ e) := by
    rw [ulp, ← ht, ← zpow_natCast, hshift, zpow_sub₀ two_ne_zero]
    field_simp
  rw [shiftToTargetExponent, htarget, shiftToExponent]
  refine ⟨?_, by simp only [hshift]; omega⟩
  rw [(hdesc.shiftRight (t - e).toNat).roundedMantissa_eq, hscale]

end

def ofParts (s : Sign) (m : ℕ) (e : ℤ) : UnpackedFloat :=
  if h : m = 0 then .zero s else .finite s m e (Nat.pos_of_ne_zero h)

theorem ofParts_spec (s : Sign) {m : ℕ} {e : ℤ} (hm : m < 2 ^ 53) (he : -1074 ≤ e)
    (hfull : 2 ^ 52 ≤ m ∨ e = -1074) :
    Canonical (ofParts s m e) ∧ (ofParts s m e).isFinite ∧
      unpackedValue (ofParts s m e) = signFactor s * (m * 2 ^ e) := by
  by_cases h : m = 0
  · simp [ofParts, h, Canonical, UnpackedFloat.isFinite, unpackedValue]
  · rw [ofParts, dif_neg h]
    exact ⟨⟨hm, he, hfull⟩, rfl, rfl⟩

theorem roundWithAccuracy_eq_ofParts (s : Sign) (m : ℕ) (e : ℤ) (accuracy : Accuracy) :
    let first := shiftToTargetExponent Format.binary64 m e accuracy
    let last := shiftToTargetExponent Format.binary64 first.1.roundedMantissa first.2 .exact
    roundWithAccuracy Format.binary64 s m e accuracy = ofParts s last.1.mantissa last.2 := rfl

theorem toGrid_signFactor_mul (s : Sign) (x : ℚ) :
    toGrid (signFactor s * x) = signFactor s * toGrid x := by
  rcases signFactor_eq s with h | h <;> simp [h]

section
variable {m : ℕ} {e : ℤ} {accuracy : Accuracy} {y : ℚ}

theorem roundWithAccuracy_spec (s : Sign) (hy : 0 < y)
    (hdesc : Describes (.ofMantissaAndAccuracy m accuracy) y)
    (he : e ≤ ulpExponent (y * 2 ^ e))
    (htarget : Format.binary64.targetExponent (totalExponent m e) = ulpExponent (y * 2 ^ e)) :
    IsRounded (roundWithAccuracy Format.binary64 s m e accuracy) (signFactor s * (y * 2 ^ e)) := by
  obtain ⟨hmantissa, hexponent⟩ := first_shift hdesc he htarget
  set m' := (shiftToTargetExponent Format.binary64 m e accuracy).1.roundedMantissa
  set x := y * 2 ^ e
  have hmax : m' ≤ 2 ^ 53 := by
    have := abs_le.1 (abs_halfEven_le x)
    omega
  have hfull : 2 ^ 52 ≤ m' ∨ ulpExponent x = -1074 := by
    rcases (least_le_ulpExponent x).lt_or_eq with hlt | heq
    · have := le_halfEven_div_ulp (show 0 < x by positivity) hlt
      exact .inl (by omega)
    · exact .inr heq.symm
  have hgrid : toGrid (signFactor s * x) = signFactor s * (m' * 2 ^ ulpExponent x) := by
    rw [toGrid_signFactor_mul, toGrid, ← hmantissa, Int.cast_natCast, ulp]
  rw [roundWithAccuracy_eq_ofParts, hexponent,
    shiftToTargetExponent_carry hmax (least_le_ulpExponent x)]
  by_cases hcarry : m' = 2 ^ 53
  · rw [if_pos hcarry]
    have hleast := least_le_ulpExponent x
    obtain ⟨hcanonical, hfinite, hvalue⟩ :=
      ofParts_spec s (m := 2 ^ 52) (e := ulpExponent x + 1) (by norm_num) (by omega) (.inl le_rfl)
    refine ⟨hcanonical, hfinite, ?_⟩
    rw [hvalue, hgrid, hcarry, zpow_add_one₀ two_ne_zero]
    push_cast
    ring
  · rw [if_neg hcarry]
    obtain ⟨hcanonical, hfinite, hvalue⟩ :=
      ofParts_spec s (m := m') (by omega) (least_le_ulpExponent x) hfull
    exact ⟨hcanonical, hfinite, hvalue.trans hgrid.symm⟩

/-- Rounding a mantissa without a rest. -/
theorem roundWithAccuracy_exact_spec (s : Sign) (hm : m ≠ 0)
    (he : e ≤ ulpExponent ((m : ℚ) * 2 ^ e)) :
    IsRounded (roundWithAccuracy Format.binary64 s m e .exact) (signFactor s * (m * 2 ^ e)) := by
  refine roundWithAccuracy_spec s (by positivity) (Describes.exact m) he ?_
  rw [targetExponent_eq, ulpExponent_natCast_mul_zpow hm]

end

theorem decreaseExponent_value (m : ℕ) (e t : ℤ) :
    ((decreaseExponent m e t).1 : ℚ) * 2 ^ (decreaseExponent m e t).2 = m * 2 ^ e := by
  simp only [decreaseExponent, Nat.shiftLeft_eq]
  push_cast
  rw [zpow_sub₀ two_ne_zero, zpow_natCast]
  field_simp

theorem decreaseExponent_exponent_le (m : ℕ) (e t : ℤ) : (decreaseExponent m e t).2 ≤ t := by
  simp only [decreaseExponent]
  omega

theorem round_spec (s : Sign) {m : ℕ} (hm : m ≠ 0) (e : ℤ) :
    IsRounded (UnpackedFloat.round Format.binary64 s m e) (signFactor s * (m * 2 ^ e)) := by
  set t := Format.binary64.targetExponent (totalExponent m e) with ht
  have hvalue := decreaseExponent_value m e t
  have hpos : (decreaseExponent m e t).1 ≠ 0 := by
    simp [decreaseExponent, Nat.shiftLeft_eq, hm]
  have hle : (decreaseExponent m e t).2 ≤
      ulpExponent ((decreaseExponent m e t).1 * 2 ^ (decreaseExponent m e t).2) := by
    refine (decreaseExponent_exponent_le m e t).trans_eq ?_
    rw [hvalue, ulpExponent_natCast_mul_zpow hm, ht, targetExponent_eq]
  rw [← hvalue]
  exact roundWithAccuracy_exact_spec s hpos hle

theorem normalize_spec (n e : ℤ) (zeroSign : Sign) :
    IsRounded (UnpackedFloat.normalize Format.binary64 n e zeroSign) (n * 2 ^ e) := by
  rw [UnpackedFloat.normalize]
  rcases lt_trichotomy n 0 with hn | rfl | hn
  · rw [Int.compare_eq_lt.2 hn]
    have habs : ((-n).toNat : ℚ) = -n := by
      exact_mod_cast congrArg (Int.cast (R := ℚ)) (Int.toNat_of_nonneg (show 0 ≤ -n by omega))
    simpa [signFactor, habs] using round_spec .negative (show (-n).toNat ≠ 0 by omega) e
  · exact ⟨trivial, rfl, by simp [unpackedValue]⟩
  · rw [Int.compare_eq_gt.2 hn]
    have habs : (n.toNat : ℚ) = n := by
      exact_mod_cast congrArg (Int.cast (R := ℚ)) (Int.toNat_of_nonneg hn.le)
    simpa [signFactor, habs] using round_spec .positive (show n.toNat ≠ 0 by omega) e

end JointGuard.Floating
