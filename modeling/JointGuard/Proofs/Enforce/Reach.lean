import JointGuard.Proofs.Enforce.Pull

/-! # The reach of a period

No allowed speed is beyond the greatest one (`speeds_within`).  Up to the upper end of the soft band
the greatest allowed speed is not negative, so the reach of a period does not fall below the
position (`le_upperReach`).  Beyond it the speed points back; if the gain times the period is at
most a quarter, the reach does not fall below the soft band either, whatever the rounding does
(`softMax_le_upperReach`). -/

namespace JointGuard
open Floating

theorem isFinite_sub_of_abs_le {x target : Float} (hx : x.isFinite) (htarget : target.isFinite)
    (hxle : |value x| ≤ 2 ^ 1000) (htargetle : |value target| ≤ 2 ^ 1000) :
    (x - target).isFinite := by
  have hdouble : (2 : ℚ) ^ (1001 : ℤ) = 2 ^ 1000 + 2 ^ 1000 := by
    rw [← mul_two, ← pow_succ]
    exact zpow_natCast 2 1001
  have hle : |value x - value target| ≤ 2 ^ (1001 : ℤ) :=
    hdouble ▸ (abs_sub _ _).trans (add_le_add hxle htargetle)
  obtain ⟨hlow, hhigh⟩ := abs_le.1 hle
  have hlow' := rounded_le_zpow (e := 1001) (by norm_num) (by norm_num) (neg_le.1 hlow)
  have hhigh' := rounded_le_zpow (e := 1001) (by norm_num) (by norm_num) hhigh
  rw [rounded_neg] at hlow'
  apply isFinite_of_abs_le (not_isNaN_sub hx htarget) (show (1001 : ℤ) < 1024 by norm_num)
  rw [value_sub hx htarget]
  exact abs_le.2 ⟨neg_le.1 hlow', hhigh'⟩

namespace SoftLimits

variable (soft : SoftLimits) (hard : HardLimits) (seconds position : Float)

/-- Where the greatest allowed speed takes the joint, before the hard band is looked at. -/
def upperReach : Float := position + (soft.speeds hard position).high * seconds

def lowerReach : Float := position + (soft.speeds hard position).low * seconds

theorem reach_of_hasPosition (h : hard.hasPosition) : soft.reach hard seconds position =
    ⟨raise (soft.lowerReach hard seconds position) hard.minPosition,
      lower (soft.upperReach hard seconds position) hard.maxPosition⟩ := by
  simp [reach, h, upperReach, lowerReach]

theorem reach_of_not_hasPosition (h : hard.hasPosition = false) : soft.reach hard seconds position =
    ⟨soft.lowerReach hard seconds position, soft.upperReach hard seconds position⟩ := by
  simp [reach, h, upperReach, lowerReach]

variable {soft hard seconds position}

variable (soft) in
/-- No allowed speed is beyond the greatest one, whatever the soft limits are. -/
theorem speeds_within (hspeed : 0.0 ≤ hard.maxVelocity) (position : Float) :
    let speeds := soft.speeds hard position
    (-hard.maxVelocity ≤ speeds.low ∧ speeds.low ≤ hard.maxVelocity) ∧
      -hard.maxVelocity ≤ speeds.high ∧ speeds.high ≤ hard.maxVelocity := by
  by_cases hflag : hard.hasPosition
  · rw [speeds_eq_confined hflag]
    exact ⟨Band.saturate_within hspeed, Band.saturate_within hspeed⟩
  · have hband := Band.neg_le_self hspeed
    simp only [speeds, if_neg hflag, Band.within]
    exact ⟨⟨Floating.le_refl (not_isNaN_left hband), hband⟩, hband,
      Floating.le_refl (not_isNaN_right hband)⟩

/-- Where the least allowed speed is not positive the joint need not move up. -/
theorem lowerReach_le (hspeed : 0.0 ≤ hard.maxVelocity) (hposition : position.isFinite)
    (hseconds : seconds.isFinite) (hpositive : 0 < value seconds)
    (h : value (soft.speeds hard position).low ≤ 0) :
    soft.lowerReach hard seconds position ≤ position := by
  obtain ⟨⟨hlow, -⟩, -⟩ := soft.speeds_within hspeed position
  have hstep := not_isNaN_mul_left (not_isNaN_right hlow) hseconds hpositive.ne'
  exact add_le_self hposition hstep
    (value_mul_nonpos (mul_nonpos_of_nonpos_of_nonneg h hpositive.le))

/-- Where the greatest allowed speed is not negative the joint need not move down. -/
theorem self_le_upperReach (hspeed : 0.0 ≤ hard.maxVelocity) (hposition : position.isFinite)
    (hseconds : seconds.isFinite) (hpositive : 0 < value seconds)
    (h : 0 ≤ value (soft.speeds hard position).high) :
    position ≤ soft.upperReach hard seconds position := by
  obtain ⟨-, hlow, -⟩ := soft.speeds_within hspeed position
  have hstep := not_isNaN_mul_left (not_isNaN_right hlow) hseconds hpositive.ne'
  exact self_le_add hposition hstep (value_mul_nonneg (mul_nonneg h hpositive.le))

section
variable (hflag : hard.hasPosition)
  (hgain : soft.positionGain.isFinite ∧ 0.0 < soft.positionGain) (hposition : position.isFinite)
  (hsoft : soft.maxPosition.isFinite) (hseconds : seconds.isFinite) (hpositive : 0 < value seconds)
include hflag hgain hposition hsoft hseconds hpositive

omit hsoft in
/-- Below the upper end of the soft band the joint may go on. -/
theorem le_upperReach (hspeed : 0.0 ≤ hard.maxVelocity) (h : position ≤ soft.maxPosition) :
    position ≤ soft.upperReach hard seconds position := by
  refine self_le_upperReach hspeed hposition hseconds hpositive ?_
  rw [speeds_eq_confined hflag]
  exact Pull.value_confined_nonneg hgain hposition hspeed h

omit hseconds hpositive in
/-- Beyond the upper end of the soft band the speed is no more negative than the pull. -/
theorem pull_le_speeds_high (hspeed : 0.0 ≤ hard.maxVelocity)
    (hdistance : (position - soft.maxPosition).isFinite) (h : soft.maxPosition ≤ position) :
    -rounded (value soft.positionGain * rounded (value position - value soft.maxPosition)) ≤
      value (soft.speeds hard position).high := by
  have hforce : value (soft.positionPull hard position soft.maxPosition).force =
      -rounded (value soft.positionGain * rounded (value position - value soft.maxPosition)) :=
    Pull.value_force hgain.1 hposition hsoft hdistance
  rw [speeds_eq_confined hflag, ← hforce]
  exact Pull.value_force_le_confined hgain hposition hspeed h

/-- Beyond the upper end of the soft band the joint is not pushed back past that end. -/
theorem softMax_le_upperReach (hspeed : 0.0 ≤ hard.maxVelocity) (hfast : hard.maxVelocity.isFinite)
    (hdistance : (position - soft.maxPosition).isFinite) (h : soft.maxPosition ≤ position)
    (hslow : value soft.positionGain * value seconds ≤ 1 / 4) :
    soft.maxPosition ≤ soft.upperReach hard seconds position := by
  have hpos := (zero_lt_iff.1 hgain.2).2
  have hvalues := (le_iff.1 h).2.2
  set distance := value position - value soft.maxPosition with hdist
  have hshort : rounded distance < beyond := by
    have hlt := abs_value_lt hdistance
    rw [value_sub hposition hsoft] at hlt
    exact lt_of_abs_lt hlt
  have hdistance_nonneg : 0 ≤ distance := sub_nonneg.2 hvalues
  have hspeeds : (soft.speeds hard position).high.isFinite := by
    rw [speeds_eq_confined hflag]
    exact Band.isFinite_saturate_within hspeed hfast
  have hback : -rounded (value soft.positionGain * rounded distance) ≤
      value (soft.speeds hard position).high :=
    pull_le_speeds_high hflag hgain hposition hsoft hspeed hdistance h
  have hstep : -distance ≤ value ((soft.speeds hard position).high * seconds) := by
    rw [value_mul hspeeds hseconds]
    calc -distance ≤ -rounded (rounded distance / 2) :=
          neg_le_neg (rounded_half_distance_le hposition hsoft hvalues)
      _ ≤ -rounded (rounded (value soft.positionGain * rounded distance) * value seconds) :=
          neg_le_neg (rounded_step_le (rounded_nonneg hdistance_nonneg) hpos.le hpositive.le hslow)
      _ = rounded (-rounded (value soft.positionGain * rounded distance) * value seconds) := by
          rw [neg_mul, rounded_neg]
      _ ≤ rounded (value (soft.speeds hard position).high * value seconds) :=
          rounded_mono (mul_le_mul_of_nonneg_right hback hpositive.le)
  have hnumber := not_isNaN_mul hspeeds hseconds
  have hle := rounded_le_value_add hposition hnumber
    (neg_lt_neg (lt_beyond_of_rounded_lt hshort)) hstep
  rw [hdist, neg_sub, add_sub_cancel, rounded_value hsoft] at hle
  exact le_iff.2 ⟨not_isNaN_of_isFinite hsoft, not_isNaN_add_left hposition hnumber, hle⟩

end

end SoftLimits

end JointGuard
