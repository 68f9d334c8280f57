import JointGuard.Proofs.Enforce.HardBand

/-! # The reach of the greatest speed

Whatever the soft limits are, a position command asks for no more than the greatest speed allows in
one period (`enforce_within_reach`).  The ends of the allowed band may be inverted, but neither of
them is below that reach, and the high end is not above it. -/

namespace JointGuard
open Floating

section
variable {position speed faster seconds : Float}

/-- A greater speed leads no less far up. -/
theorem travel_mono (hposition : position.isFinite) (hseconds : seconds.isFinite)
    (hpositive : 0 < value seconds) (h : speed ≤ faster) :
    position + speed * seconds ≤ position + faster * seconds := by
  have hslow := not_isNaN_mul_left (not_isNaN_left h) hseconds hpositive.ne'
  have hfast := not_isNaN_mul_left (not_isNaN_right h) hseconds hpositive.ne'
  have hstep : speed * seconds ≤ faster * seconds :=
    Floating.mul_le_mul_right hpositive.le h hslow hfast
  exact add_le_add_of_isFinite hposition hstep

end

namespace HardLimits

/-- Where the greatest speed takes a joint, down and up. -/
def speedReach (hard : HardLimits) (seconds position : Float) : Band where
  low := position + -hard.maxVelocity * seconds
  high := position + hard.maxVelocity * seconds

end HardLimits

namespace SoftLimits

section
variable (soft : SoftLimits) {hard : HardLimits} {seconds position : Float}
  (hspeed : 0.0 ≤ hard.maxVelocity) (hposition : position.isFinite) (hseconds : seconds.isFinite)
  (hpositive : 0 < value seconds)
include hspeed hposition hseconds hpositive

theorem speedReach_le_lowerReach :
    (hard.speedReach seconds position).low ≤ soft.lowerReach hard seconds position :=
  travel_mono hposition hseconds hpositive (soft.speeds_within hspeed position).1.1

theorem speedReach_le_upperReach :
    (hard.speedReach seconds position).low ≤ soft.upperReach hard seconds position :=
  travel_mono hposition hseconds hpositive (soft.speeds_within hspeed position).2.1

theorem upperReach_le_speedReach :
    soft.upperReach hard seconds position ≤ (hard.speedReach seconds position).high :=
  travel_mono hposition hseconds hpositive (soft.speeds_within hspeed position).2.2

omit soft in
theorem speedReach_low_le : (hard.speedReach seconds position).low ≤ position := by
  obtain ⟨hnan, hnonneg⟩ := zero_le_iff.1 hspeed
  have hdown : ¬(-hard.maxVelocity).isNaN := by rwa [isNaN_neg]
  refine add_le_self hposition (not_isNaN_mul_left hdown hseconds hpositive.ne') ?_
  apply value_mul_nonpos
  rw [value_neg]
  exact mul_nonpos_of_nonpos_of_nonneg (neg_nonpos.2 hnonneg) hpositive.le

/-- Both ends of the allowed band are in reach from below, and the high end from above.  The hard
band does not interfere, because the joint is in it. -/
theorem reach_within_speedReach (hcontains : hard.contains position) :
    let reach := hard.speedReach seconds position
    let band := soft.reach hard seconds position
    reach.low ≤ band.low ∧ reach.low ≤ band.high ∧ band.high ≤ reach.high := by
  intro reach band
  have hlow := soft.speedReach_le_lowerReach hspeed hposition hseconds hpositive
  have hmiddle := soft.speedReach_le_upperReach hspeed hposition hseconds hpositive
  have hhigh := soft.upperReach_le_speedReach hspeed hposition hseconds hpositive
  by_cases hflag : hard.hasPosition
  · have hband := (HardLimits.contains_iff hflag).1 hcontains
    have hself : reach.low ≤ position :=
      speedReach_low_le hspeed hposition hseconds hpositive
    simp only [band, reach_of_hasPosition _ _ _ _ hflag]
    refine ⟨Floating.le_trans hlow (le_raise_left (not_isNaN_right hlow)), ?_, ?_⟩
    · exact le_lower hmiddle (.inr (Floating.le_trans hself hband.2))
    · exact Floating.le_trans (lower_le_left (not_isNaN_right hmiddle)) hhigh
  · simp only [band, reach_of_not_hasPosition _ _ _ _ (Bool.not_eq_true _ ▸ hflag)]
    exact ⟨hlow, hmiddle, hhigh⟩

end

end SoftLimits

/-- A position command is a number within the reach of the greatest speed, and without position
limits it is the pending command saturated into that reach. -/
theorem enforce_within_reach {n : Nat} {hard : HardLimits} {soft : SoftLimits}
    {hasVelocity : hard.hasVelocity} (handle : Handle .position n)
    (hrule : handle.rule = .position hard soft hasVelocity) (hspeed : 0.0 ≤ hard.maxVelocity)
    (joints : Joints n) (hposition : (joints.get handle.joint).position.isFinite)
    (hcontains : hard.contains (joints.get handle.joint).position) {period : Period}
    (hpositive : period.IsPositive) :
    let joint := joints.get handle.joint
    let low := joint.position + -hard.maxVelocity * period.inSeconds
    let high := joint.position + hard.maxVelocity * period.inSeconds
    let written := handle.written period joints
    ¬written.isNaN ∧ low ≤ written ∧ written ≤ high ∧
      (hard.hasPosition = false → written = saturate joint.command low high) := by
  intro joint low high written
  obtain ⟨hlow, hmiddle, hhigh⟩ := soft.reach_within_speedReach hspeed hposition
    period.isFinite_inSeconds (Period.value_inSeconds_pos hpositive) hcontains
  have hwritten : written = _ := Handle.written_position hrule period joints
  have hle : low ≤ written := hwritten ▸ le_saturate_of_le hlow hmiddle
  refine ⟨not_isNaN_right hle, hle, ?_, ?_⟩
  · rw [hwritten]
    exact Floating.le_trans (saturate_le (not_isNaN_right hmiddle)) hhigh
  · intro hflag
    have hspeeds : soft.speeds hard joint.position = .within hard.maxVelocity := by
      simp [SoftLimits.speeds, hflag]
    rw [hwritten, SoftLimits.reach_of_not_hasPosition _ _ _ _ hflag, SoftLimits.lowerReach,
      SoftLimits.upperReach, hspeeds]
    rfl

/-- The band is the wrong way round, and the gain pushes away from it. -/
def twistedSoft : SoftLimits where
  positionGain := -4.0
  velocityGain := 0.0
  minPosition := 0.5
  maxPosition := -0.5

def twistedHard : HardLimits := (HardLimits.unlimited.withPosition (-1.0) 1.0).withVelocity 2.0

def twistedHandle : Handle .position 1 := .solo (.position twistedHard twistedSoft rfl)

/-- Near the upper end of the hard band, with no command. -/
def twistedJoints : Joints 1 := Vector.replicate 1 { position := 0.75, command := 0.0 / 0.0 }

/-- The ends of the allowed band are inverted, and the command stays in reach all the same. -/
theorem enforce_within_reach_twisted :
    twistedHandle.rule = .position twistedHard twistedSoft rfl ∧ 0.0 ≤ twistedHard.maxVelocity ∧
      (0.75 : Float).isFinite ∧ twistedHard.contains 0.75 ∧ oneSecond.IsPositive ∧
      (twistedSoft.reach twistedHard oneSecond.inSeconds 0.75).high <
        (twistedSoft.reach twistedHard oneSecond.inSeconds 0.75).low ∧
      ¬(twistedHandle.written oneSecond twistedJoints).isNaN ∧
      (twistedHard.speedReach oneSecond.inSeconds 0.75).low ≤
        twistedHandle.written oneSecond twistedJoints ∧
      twistedHandle.written oneSecond twistedJoints ≤
        (twistedHard.speedReach oneSecond.inSeconds 0.75).high := by
  have hspeed : 0.0 ≤ twistedHard.maxVelocity := by decide +kernel
  have hfinite : (0.75 : Float).isFinite := by decide +kernel
  have hcontains : twistedHard.contains 0.75 := by decide +kernel
  have hperiod : oneSecond.IsPositive := by decide
  obtain ⟨hnan, hlow, hhigh, -⟩ :=
    enforce_within_reach twistedHandle rfl hspeed twistedJoints hfinite hcontains hperiod
  exact ⟨rfl, hspeed, hfinite, hcontains, hperiod, by decide +kernel, hnan, hlow, hhigh⟩

end JointGuard
