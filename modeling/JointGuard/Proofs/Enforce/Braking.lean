import JointGuard.Decimal.Nearest
import JointGuard.Proofs.Enforce.EffortBand
import JointGuard.Proofs.Floating.Opposite

/-! # Braking

A joint that is faster than the greatest allowed speed is slowed down by an effort that grows with
the excess, and one that is slower than the least allowed speed is driven on likewise.  At the ends
of the soft band the allowed speeds vanish, so no effort drives a joint further out of it
(`enforce_brakes`). -/

namespace JointGuard
open Floating

namespace Band

variable {x force reach : Float}

/-- A force that is directed up is lowered at most. -/
theorem saturate_within_beq_lower (hreach : 0.0 ≤ reach) (hx : x == force)
    (hforce : 0 ≤ value force) : (within reach).saturate x == lower reach force := by
  obtain ⟨hnan, hnonneg⟩ := zero_le_iff.1 hreach
  obtain ⟨hxnan, hforcenan, hvalue⟩ := beq_iff.1 hx
  refine beq_iff.2 ⟨not_isNaN_saturate_within hnan, fun h => hnan (isNaN_lower.1 h).1, ?_⟩
  rw [value_saturate_within hxnan hnan, value_lower hnan hforcenan, hvalue,
    max_eq_left (by linarith), min_comm]

theorem saturate_within_beq_neg_lower (hreach : 0.0 ≤ reach) (hx : x == -force)
    (hforce : 0 ≤ value force) : (within reach).saturate x == -lower reach force := by
  obtain ⟨hnan, hnonneg⟩ := zero_le_iff.1 hreach
  obtain ⟨hxnan, hforcenan, hvalue⟩ := beq_neg_iff.1 hx
  refine beq_neg_iff.2 ⟨not_isNaN_saturate_within hnan, fun h => hnan (isNaN_lower.1 h).1, ?_⟩
  rw [value_saturate_within hxnan hnan, value_lower hnan hforcenan, hvalue, max_neg_neg,
    min_comm (value force)]
  exact min_eq_left ((neg_nonpos.2 (le_min hnonneg hforce)).trans hnonneg)

end Band

namespace SoftLimits

variable {soft : SoftLimits} {hard : HardLimits} {position velocity excess : Float}

/-- The effort against an excess of speed: in proportion to the excess, and never beyond the
greatest effort. -/
def brake (soft : SoftLimits) (hard : HardLimits) (excess : Float) : Float :=
  lower hard.maxEffort (soft.velocityGain * excess)

section
variable (hfirm : IsFirm hard soft)
include hfirm

theorem not_isNaN_force (hexcess : ¬excess.isNaN) : ¬(soft.velocityGain * excess).isNaN :=
  not_isNaN_mul_right hfirm.velocityGain.1 (zero_lt_iff.1 hfirm.velocityGain.2).2.ne' hexcess

theorem value_force_nonneg (hexcess : 0 ≤ value excess) :
    0 ≤ value (soft.velocityGain * excess) :=
  value_mul_nonneg (mul_nonneg (zero_lt_iff.1 hfirm.velocityGain.2).2.le hexcess)

theorem zero_le_brake (hexcess : 0.0 ≤ excess) : 0.0 ≤ soft.brake hard excess := by
  obtain ⟨hnan, hnonneg⟩ := zero_le_iff.1 hexcess
  have hforce : 0.0 ≤ soft.velocityGain * excess :=
    zero_le_iff.2 ⟨not_isNaN_force hfirm hnan, value_force_nonneg hfirm hnonneg⟩
  exact le_lower hfirm.effort (.inr hforce)

/-- Above the greatest allowed speed, the greatest allowed effort is the brake. -/
theorem efforts_high_beq (hvelocity : velocity.isFinite)
    (h : (soft.speeds hard position).high ≤ velocity) :
    (soft.efforts hard position velocity).high ==
      -soft.brake hard (velocity - (soft.speeds hard position).high) := by
  have hforce := not_isNaN_force hfirm (not_isNaN_sub_left hvelocity (not_isNaN_left h))
  have hgain : -soft.velocityGain == -soft.velocityGain :=
    neg_beq_self (not_isNaN_of_isFinite hfirm.velocityGain.1)
  exact Band.saturate_within_beq_neg_lower hfirm.effort (mul_beq_neg_left hgain hforce)
    (value_force_nonneg hfirm (value_sub_nonneg h))

/-- Below the least allowed speed, the least allowed effort is the brake. -/
theorem efforts_low_beq (hvelocity : velocity.isFinite)
    (h : velocity ≤ (soft.speeds hard position).low) :
    (soft.efforts hard position velocity).low ==
      soft.brake hard ((soft.speeds hard position).low - velocity) := by
  have hexcess := not_isNaN_sub_right (not_isNaN_right h) hvelocity
  have hgain : -soft.velocityGain == -soft.velocityGain :=
    neg_beq_self (not_isNaN_of_isFinite hfirm.velocityGain.1)
  -- the gain and the difference are both turned round
  have hturned := mul_beq_neg_left hgain (not_isNaN_force hfirm hexcess)
  have hpull : -soft.velocityGain * (velocity - (soft.speeds hard position).low) ==
      soft.velocityGain * ((soft.speeds hard position).low - velocity) :=
    beq_neg_trans (mul_beq_neg_right (sub_swap_beq_neg hexcess) (beq_neg_iff.1 hturned).1) hturned
  exact Band.saturate_within_beq_lower hfirm.effort hpull
    (value_force_nonneg hfirm (value_sub_nonneg h))

theorem speeds_high_le (hposition : position.isFinite)
    (h : hard.hasPosition ∧ soft.maxPosition ≤ position ∧ 0.0 ≤ velocity ∨
      hard.maxVelocity ≤ velocity) : (soft.speeds hard position).high ≤ velocity := by
  have hspeeds := hfirm.isOrdered_speeds position
  rcases h with ⟨hflag, hbeyond, hforward⟩ | hover
  · have hstop : value (soft.speeds hard position).high ≤ 0 := by
      rw [speeds_eq_confined hflag]
      exact Pull.value_confined_nonpos hfirm.positionGain hposition hfirm.speed hbeyond
    obtain ⟨hnan, hnonneg⟩ := zero_le_iff.1 hforward
    exact le_iff.2 ⟨not_isNaN_right hspeeds.low_le_high, hnan, hstop.trans hnonneg⟩
  · exact Floating.le_trans hspeeds.high_le_reach hover

theorem le_speeds_low (hposition : position.isFinite)
    (h : hard.hasPosition ∧ position ≤ soft.minPosition ∧ velocity ≤ 0.0 ∨
      velocity ≤ -hard.maxVelocity) : velocity ≤ (soft.speeds hard position).low := by
  have hspeeds := hfirm.isOrdered_speeds position
  rcases h with ⟨hflag, hbeyond, hbackward⟩ | hover
  · have hstop : 0 ≤ value (soft.speeds hard position).low := by
      rw [speeds_eq_confined hflag]
      exact Pull.value_confined_nonneg hfirm.positionGain hposition hfirm.speed hbeyond
    obtain ⟨hnan, -, hnonpos⟩ := le_iff.1 hbackward
    rw [value_zero] at hnonpos
    exact le_iff.2 ⟨hnan, not_isNaN_left hspeeds.low_le_high, hnonpos.trans hstop⟩
  · exact Floating.le_trans hover hspeeds.neg_reach_le

end

end SoftLimits

/-- A joint that is too fast is braked by at least the gain times the excess, as far as the greatest
effort goes.  No effort drives a joint on at the ends of its soft band or at its greatest speed. -/
theorem enforce_brakes {n : Nat} {hard : HardLimits} {soft : SoftLimits}
    {hasVelocity : hard.hasVelocity} {hasEffort : hard.hasEffort} (handle : Handle .effort n)
    (hrule : handle.rule = .effort hard soft hasVelocity hasEffort) (hfirm : IsFirm hard soft)
    (joints : Joints n) (hmeasured : (joints.get handle.joint).IsMeasured) (period : Period) :
    let joint := joints.get handle.joint
    let speeds := soft.speeds hard joint.position
    let written := handle.written period joints
    (speeds.high ≤ joint.velocity →
      let brake := soft.brake hard (joint.velocity - speeds.high)
      written ≤ -brake ∧ -brake ≤ 0.0) ∧
    (joint.velocity ≤ speeds.low →
      let brake := soft.brake hard (speeds.low - joint.velocity)
      brake ≤ written ∧ 0.0 ≤ brake) ∧
    (hard.hasPosition ∧ soft.maxPosition ≤ joint.position ∧ 0.0 ≤ joint.velocity ∨
      hard.maxVelocity ≤ joint.velocity → written ≤ 0.0) ∧
    (hard.hasPosition ∧ joint.position ≤ soft.minPosition ∧ joint.velocity ≤ 0.0 ∨
      joint.velocity ≤ -hard.maxVelocity → 0.0 ≤ written) := by
  intro joint speeds written
  obtain ⟨hposition, hvelocity⟩ := hmeasured
  have hwritten : (soft.efforts hard joint.position joint.velocity).Surrounds written := by
    rw [show written = _ from Handle.written_effort hrule period joints]
    exact Band.surrounds_saturate (hfirm.isOrdered_efforts _ _).low_le_high
  have hfast (h : speeds.high ≤ joint.velocity) :
      written ≤ -soft.brake hard (joint.velocity - speeds.high) ∧
        -soft.brake hard (joint.velocity - speeds.high) ≤ 0.0 := by
    have hexcess : 0.0 ≤ joint.velocity - speeds.high :=
      zero_le_iff.2 ⟨not_isNaN_sub_left hvelocity (not_isNaN_left h), value_sub_nonneg h⟩
    have hbrake := le_of_beq (SoftLimits.efforts_high_beq hfirm hvelocity h)
    exact ⟨Floating.le_trans hwritten.le_high hbrake,
      neg_le_zero (SoftLimits.zero_le_brake hfirm hexcess)⟩
  have hslow (h : joint.velocity ≤ speeds.low) :
      soft.brake hard (speeds.low - joint.velocity) ≤ written ∧
        0.0 ≤ soft.brake hard (speeds.low - joint.velocity) := by
    have hexcess : 0.0 ≤ speeds.low - joint.velocity :=
      zero_le_iff.2 ⟨not_isNaN_sub_right (not_isNaN_right h) hvelocity, value_sub_nonneg h⟩
    have hbrake := ge_of_beq (SoftLimits.efforts_low_beq hfirm hvelocity h)
    exact ⟨Floating.le_trans hbrake hwritten.low_le, SoftLimits.zero_le_brake hfirm hexcess⟩
  refine ⟨hfast, hslow, fun h => ?_, fun h => ?_⟩
  · obtain ⟨hbrake, hdirection⟩ := hfast (SoftLimits.speeds_high_le hfirm hposition h)
    exact Floating.le_trans hbrake hdirection
  · obtain ⟨hbrake, hdirection⟩ := hslow (SoftLimits.le_speeds_low hfirm hposition h)
    exact Floating.le_trans hdirection hbrake

def slidingSoft : SoftLimits where
  positionGain := 4.0
  velocityGain := 3.0
  minPosition := -0.5
  maxPosition := 0.5

/-- There is no greatest effort. -/
def slidingHard : HardLimits :=
  ((HardLimits.unlimited.withPosition (-1.0) 1.0).withVelocity 1.0).withEffort Decimal.infinity

def slidingHandle : Handle .effort 1 := .solo (.effort slidingHard slidingSoft rfl rfl)

/-- A joint above its soft band that still moves up, with no command. -/
def slidingJoints : Joints 1 :=
  Vector.replicate 1 { position := 0.625, velocity := 0.25, command := 0.0 / 0.0 }

/-- The greatest allowed speed is half a unit down, so the excess is three quarters. -/
theorem enforce_brakes_sliding :
    slidingHandle.rule = .effort slidingHard slidingSoft rfl rfl ∧ IsFirm slidingHard slidingSoft ∧
      (slidingJoints.get 0).IsMeasured ∧
      (slidingSoft.speeds slidingHard 0.625).high = -0.5 ∧
      slidingSoft.brake slidingHard (0.25 - -0.5) = 2.25 ∧
      slidingHandle.written oneSecond slidingJoints = -3.75 ∧
      slidingHandle.written oneSecond slidingJoints ≤ -2.25 ∧
      slidingHandle.written oneSecond slidingJoints ≤ 0.0 := by
  have hfirm : IsFirm slidingHard slidingSoft :=
    { speed := by decide +kernel
      effort := by decide +kernel
      positionGain := by decide +kernel
      velocityGain := by decide +kernel
      band := by decide +kernel }
  have hmeasured : (slidingJoints.get 0).IsMeasured := ⟨by decide +kernel, by decide +kernel⟩
  have hspeed : (slidingSoft.speeds slidingHard 0.625).high = -0.5 := by decide +kernel
  have hbrake : slidingSoft.brake slidingHard (0.25 - -0.5) = 2.25 := by decide +kernel
  obtain ⟨hfast, -, hstop, -⟩ :=
    enforce_brakes slidingHandle rfl hfirm slidingJoints hmeasured oneSecond
  have hbraked := (hfast (by decide +kernel)).1
  refine ⟨rfl, hfirm, hmeasured, hspeed, hbrake, by decide +kernel, ?_,
    hstop (.inl ⟨rfl, by decide +kernel, by decide +kernel⟩)⟩
  rw [← hbrake, ← hspeed]
  exact hbraked

end JointGuard
