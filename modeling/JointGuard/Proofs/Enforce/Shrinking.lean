import JointGuard.Proofs.Enforce.Braking
import JointGuard.Proofs.Enforce.Monotone
import JointGuard.Proofs.Enforce.Pull

/-! # Shrinking speeds

An allowed speed is drawn towards an end of the soft band.  It does not grow on the way up, is zero
at the end itself, points back beyond it, and is the greatest one wherever the distance calls for
that (`speeds_shrink`).  Full speed comes from the pull being the product of the gain and the
distance, or the opposite of that, whatever overflows on the way (`Pull.force_beq`,
`Pull.force_beq_neg`). -/

namespace JointGuard
open Floating

namespace Pull

/-- How strong the pull is, whatever its direction. -/
def strength (pull : Pull) : Float := pull.gain * (pull.quantity - pull.target).abs

/-- A speed that leads back to the target: it points there, is zero at the target itself, and is the
greatest one where the strength of the pull reaches that. -/
structure LeadsBack (pull : Pull) (speed : Float) : Prop where
  nonneg : pull.quantity ≤ pull.target → 0.0 ≤ speed
  zero : pull.quantity == pull.target → speed == 0.0
  nonpos : pull.target ≤ pull.quantity → speed ≤ 0.0
  full_up : pull.reach ≤ pull.strength → pull.quantity ≤ pull.target → speed == pull.reach
  full_down : pull.reach ≤ pull.strength → pull.target ≤ pull.quantity → speed == -pull.reach

section
variable {pull : Pull} (hgain : pull.gain.isFinite ∧ 0.0 < pull.gain)
  (hquantity : pull.quantity.isFinite) (htarget : ¬pull.target.isNaN)
include hgain hquantity htarget

theorem not_isNaN_strength : ¬pull.strength.isNaN := by
  have hdistance := not_isNaN_sub_left hquantity htarget
  exact not_isNaN_mul_right hgain.1 (zero_lt_iff.1 hgain.2).2.ne' (by rwa [isNaN_abs])

omit hquantity htarget in
theorem value_strength_nonneg : 0 ≤ value pull.strength := by
  apply value_mul_nonneg
  rw [value_abs]
  exact mul_nonneg (zero_lt_iff.1 hgain.2).2.le (abs_nonneg _)

theorem force_beq (h : pull.quantity ≤ pull.target) : pull.force == pull.strength := by
  have hforce := not_isNaN_force hgain hquantity htarget
  have hstrength := not_isNaN_strength hgain hquantity htarget
  refine beq_iff.2 ⟨hforce, hstrength, ?_⟩
  rw [force, strength, value_mul_eq hforce, value_mul_eq hstrength, weight_neg, weight_abs,
    abs_of_nonpos (weight_nonpos (value_sub_nonpos h)), neg_mul, mul_neg]

theorem force_beq_neg (h : pull.target ≤ pull.quantity) : pull.force == -pull.strength := by
  have hforce := not_isNaN_force hgain hquantity htarget
  have hstrength := not_isNaN_strength hgain hquantity htarget
  refine beq_neg_iff.2 ⟨hforce, hstrength, ?_⟩
  rw [force, strength, value_mul_eq hforce, value_mul_eq hstrength, weight_neg, weight_abs,
    abs_of_nonneg (weight_nonneg (value_sub_nonneg h)), neg_mul, rounded_neg]

theorem leadsBack_confined (hreach : 0.0 ≤ pull.reach) : pull.LeadsBack pull.confined := by
  have hstrength := value_strength_nonneg hgain
  have hup (h : pull.quantity ≤ pull.target) : 0.0 ≤ pull.confined :=
    zero_le_iff.2 ⟨not_isNaN_confined hreach, value_confined_nonneg hgain hquantity hreach h⟩
  have hdown (h : pull.target ≤ pull.quantity) : pull.confined ≤ 0.0 := by
    rw [le_iff, value_zero]
    exact ⟨not_isNaN_confined hreach, by decide +kernel,
      value_confined_nonpos hgain hquantity hreach h⟩
  refine ⟨hup, fun h => ?_, hdown, fun hstrong h => ?_, fun hstrong h => ?_⟩
  · exact beq_of_le_of_ge (hdown (ge_of_beq h)) (hup (le_of_beq h))
  · have hlower : pull.confined == lower pull.reach pull.strength :=
      Band.saturate_within_beq_lower hreach (force_beq hgain hquantity htarget h) hstrength
    have hreached := lower_beq_left hstrong
    exact beq_of_le_of_ge (Floating.le_trans (le_of_beq hlower) (le_of_beq hreached))
      (Floating.le_trans (ge_of_beq hreached) (ge_of_beq hlower))
  · have hlower : pull.confined == -lower pull.reach pull.strength :=
      Band.saturate_within_beq_neg_lower hreach (force_beq_neg hgain hquantity htarget h) hstrength
    have hreached := lower_beq_left hstrong
    exact beq_of_le_of_ge
      (Floating.le_trans (le_of_beq hlower) (Floating.neg_le_neg (ge_of_beq hreached)))
      (Floating.le_trans (Floating.neg_le_neg (le_of_beq hreached)) (ge_of_beq hlower))

end

end Pull

/-- Further up neither allowed speed is greater.  Below its end of the soft band each one points up,
at the end it is zero, above it it points down, and it is the greatest speed there is wherever the
gain times the distance reaches that. -/
theorem speeds_shrink {hard : HardLimits} {soft : SoftLimits} (hflag : hard.hasPosition)
    (hspeed : 0.0 ≤ hard.maxVelocity) (hgain : soft.positionGain.isFinite ∧ 0.0 < soft.positionGain)
    (hmin : soft.minPosition.isFinite) (hmax : soft.maxPosition.isFinite) :
    (∀ p q : Float, p.isFinite → q.isFinite → p ≤ q →
      (soft.speeds hard q).IsBelow (soft.speeds hard p)) ∧
    ∀ p : Float, p.isFinite →
      (soft.positionPull hard p soft.minPosition).LeadsBack (soft.speeds hard p).low ∧
        (soft.positionPull hard p soft.maxPosition).LeadsBack (soft.speeds hard p).high := by
  have hlow := not_isNaN_of_isFinite hmin
  have hhigh := not_isNaN_of_isFinite hmax
  refine ⟨fun p q hp hq hpq => SoftLimits.speeds_anti hspeed hgain.2 hlow hhigh hp hq hpq, ?_⟩
  intro p hp
  rw [SoftLimits.speeds_eq_confined hflag]
  exact ⟨Pull.leadsBack_confined hgain hp hlow hspeed,
    Pull.leadsBack_confined hgain hp hhigh hspeed⟩

/-- The ends of the soft band are inverted, and their distance is no number. -/
def stretchedSoft : SoftLimits where
  positionGain := 0.5
  velocityGain := 0.0
  minPosition := 1.5e308
  maxPosition := -1.5e308

def stretchedHard : HardLimits := (HardLimits.unlimited.withPosition (-1.0) 1.0).withVelocity 2.0

theorem speeds_shrink_stretched :
    stretchedHard.hasPosition ∧ 0.0 ≤ stretchedHard.maxVelocity ∧
      (stretchedSoft.positionGain.isFinite ∧ 0.0 < stretchedSoft.positionGain) ∧
      stretchedSoft.minPosition.isFinite ∧ stretchedSoft.maxPosition.isFinite ∧
      (0.0 : Float) ≤ 1.5e308 ∧ ¬(1.5e308 - stretchedSoft.maxPosition).isFinite ∧
      (stretchedSoft.speeds stretchedHard 1.5e308).IsBelow
        (stretchedSoft.speeds stretchedHard 0.0) ∧
      (stretchedSoft.speeds stretchedHard 1.5e308).low == 0.0 ∧
      (stretchedSoft.speeds stretchedHard 1.5e308).high == -2.0 := by
  have hspeed : 0.0 ≤ stretchedHard.maxVelocity := by decide +kernel
  have hgain : stretchedSoft.positionGain.isFinite ∧ 0.0 < stretchedSoft.positionGain := by
    decide +kernel
  have hmin : stretchedSoft.minPosition.isFinite := by decide +kernel
  have hmax : stretchedSoft.maxPosition.isFinite := by decide +kernel
  have hzero : (0.0 : Float).isFinite := by decide +kernel
  have hle : (0.0 : Float) ≤ 1.5e308 := by decide +kernel
  obtain ⟨hanti, hback⟩ := speeds_shrink rfl hspeed hgain hmin hmax
  obtain ⟨hlow, hhigh⟩ := hback 1.5e308 hmin
  exact ⟨rfl, hspeed, hgain, hmin, hmax, hle, by decide +kernel, hanti 0.0 1.5e308 hzero hmin hle,
    hlow.zero (by decide +kernel), hhigh.full_down (by decide +kernel) (by decide +kernel)⟩

end JointGuard
