import JointGuard.Enforce.Rule
import JointGuard.Proofs.Enforce.Saturation
import JointGuard.Proofs.Floating.Weight

/-! # Pulls

The laws pull a joint back in proportion to a distance, as far as a greatest strength goes.  Both
ends of the allowed speeds and of the allowed efforts are such pulls (`speeds_eq_confined`,
`efforts_eq_confined`), and a pull with a finite gain above zero points at its target, wherever that
is (`value_confined_nonneg`, `value_confined_nonpos`).  An infinite gain over no distance, and no
gain over an infinite distance, leave a pull undetermined: the product is NaN, and saturation takes
it for the strongest negative one. -/

namespace JointGuard
open Floating

/-- What draws a quantity towards a target, by at most `reach`. -/
structure Pull where
  gain : Float
  quantity : Float
  target : Float
  reach : Float

namespace Pull

def force (pull : Pull) : Float := -pull.gain * (pull.quantity - pull.target)

def confined (pull : Pull) : Float := (Band.within pull.reach).saturate pull.force

def IsUndetermined (pull : Pull) : Prop :=
  ¬pull.gain.isFinite ∧ pull.quantity == pull.target ∨
    pull.gain == 0.0 ∧ ¬(pull.quantity - pull.target).isFinite

variable {pull : Pull}

theorem isNaN_force_iff (hgain : ¬pull.gain.isNaN) (hquantity : pull.quantity.isFinite)
    (htarget : ¬pull.target.isNaN) : pull.force.isNaN ↔ pull.IsUndetermined := by
  have hnumber := not_isNaN_of_isFinite hquantity
  have hdistance := not_isNaN_sub_left hquantity htarget
  have hzero : ¬(0.0 : Float).isNaN := by decide +kernel
  rw [force, isNaN_mul, isNaN_neg, value_neg, abs_neg, neg_eq_zero, or_iff_right hgain,
    or_iff_right hdistance, abs_value_eq_beyond_iff_not_isFinite hgain,
    abs_value_eq_beyond_iff_not_isFinite hdistance, value_sub_eq_zero_iff hquantity htarget,
    IsUndetermined, beq_iff, beq_iff, value_zero]
  tauto

/-- Saturation takes NaN for the strongest negative pull. -/
theorem confined_of_isNaN (hforce : pull.force.isNaN) (hreach : 0.0 < pull.reach) :
    pull.confined = -pull.reach :=
  Band.saturate_within_of_le hreach (.inl hforce)

theorem not_isNaN_confined (hreach : 0.0 ≤ pull.reach) : ¬pull.confined.isNaN :=
  Band.not_isNaN_saturate_within (not_isNaN_right hreach)

theorem not_isNaN_force (hgain : pull.gain.isFinite ∧ 0.0 < pull.gain)
    (hquantity : pull.quantity.isFinite) (htarget : ¬pull.target.isNaN) : ¬pull.force.isNaN := by
  have hfinite : (-pull.gain).isFinite := by rw [isFinite_neg]; exact hgain.1
  exact not_isNaN_mul_right hfinite (value_neg_lt_zero hgain.2).ne
    (not_isNaN_sub_left hquantity htarget)

/-- The pull is the rounded product, unless the distance is too large for a number. -/
theorem value_force (hgain : pull.gain.isFinite) (hquantity : pull.quantity.isFinite)
    (htarget : pull.target.isFinite) (hdistance : (pull.quantity - pull.target).isFinite) :
    value pull.force =
      -rounded (value pull.gain * rounded (value pull.quantity - value pull.target)) := by
  rw [force, value_mul (by rwa [isFinite_neg]) hdistance, value_neg, value_sub hquantity htarget,
    neg_mul, rounded_neg]

theorem value_force_nonneg (hgain : 0.0 < pull.gain) (h : pull.quantity ≤ pull.target) :
    0 ≤ value pull.force := by
  apply value_mul_nonneg
  exact mul_nonneg_of_nonpos_of_nonpos (value_neg_lt_zero hgain).le (value_sub_nonpos h)

theorem value_force_nonpos (hgain : 0.0 < pull.gain) (h : pull.target ≤ pull.quantity) :
    value pull.force ≤ 0 := by
  apply value_mul_nonpos
  exact mul_nonpos_of_nonpos_of_nonneg (value_neg_lt_zero hgain).le (value_sub_nonneg h)

section
variable (hgain : pull.gain.isFinite ∧ 0.0 < pull.gain) (hquantity : pull.quantity.isFinite)
  (hreach : 0.0 ≤ pull.reach)
include hgain hquantity hreach

/-- Below its target a quantity is not drawn down. -/
theorem value_confined_nonneg (h : pull.quantity ≤ pull.target) : 0 ≤ value pull.confined :=
  Band.value_saturate_within_nonneg hreach
    (not_isNaN_force hgain hquantity (not_isNaN_right h)) (value_force_nonneg hgain.2 h)

/-- Above its target a quantity is not drawn up. -/
theorem value_confined_nonpos (h : pull.target ≤ pull.quantity) : value pull.confined ≤ 0 :=
  Band.value_saturate_within_nonpos hreach
    (not_isNaN_force hgain hquantity (not_isNaN_left h)) (value_force_nonpos hgain.2 h)

/-- Above its target a quantity is drawn down by no more than the force. -/
theorem value_force_le_confined (h : pull.target ≤ pull.quantity) :
    value pull.force ≤ value pull.confined := by
  obtain ⟨hnan, hnonneg⟩ := zero_le_iff.1 hreach
  have hforce := not_isNaN_force hgain hquantity (not_isNaN_left h)
  rw [confined, Band.value_saturate_within hforce hnan]
  exact le_min (le_max_left _ _) ((value_force_nonpos hgain.2 h).trans hnonneg)

end

end Pull

namespace SoftLimits

variable {soft : SoftLimits} {hard : HardLimits} {position : Float}

def positionPull (soft : SoftLimits) (hard : HardLimits) (position target : Float) : Pull :=
  ⟨soft.positionGain, position, target, hard.maxVelocity⟩

def velocityPull (soft : SoftLimits) (hard : HardLimits) (velocity target : Float) : Pull :=
  ⟨soft.velocityGain, velocity, target, hard.maxEffort⟩

theorem speeds_eq_confined (h : hard.hasPosition) : soft.speeds hard position =
    ⟨(soft.positionPull hard position soft.minPosition).confined,
      (soft.positionPull hard position soft.maxPosition).confined⟩ := by
  rw [speeds, if_pos h]
  rfl

theorem efforts_eq_confined (velocity : Float) : soft.efforts hard position velocity =
    ⟨(soft.velocityPull hard velocity (soft.speeds hard position).low).confined,
      (soft.velocityPull hard velocity (soft.speeds hard position).high).confined⟩ := rfl

end SoftLimits

end JointGuard
