import JointGuard.Decimal.Nearest
import JointGuard.Proofs.Enforce.HardBand

/-! # The bands of effort mode

With positive gains and a soft band that is the right way round, neither the allowed speeds nor the
allowed efforts are ever inverted, whatever is measured (`enforce_ordered_bands`).  Rounding keeps
the order of two pulls that are numbers.  A pull that is NaN counts as the strongest negative one,
which keeps the order as well: where only the pull over the smaller distance is NaN, the other one
is infinite (`value_pull_of_isNaN`). -/

namespace JointGuard
open Floating

namespace Band

section
variable {gain reach x y : Float} (hgain : 0.0 < gain)
include hgain

theorem value_pull_of_infinite (hx : 0 < value x) (hinf : ¬(gain.isFinite ∧ x.isFinite)) :
    value (-gain * x) = -beyond := by
  obtain ⟨hgainNaN, hpos⟩ := zero_lt_iff.1 hgain
  have hxnan : ¬x.isNaN := fun h => hx.ne' (value_of_isNaN h)
  have hnumber : ¬(-gain * x).isNaN := by
    rw [isNaN_mul, not_or, not_or, not_or, isNaN_neg, value_neg, neg_eq_zero]
    exact ⟨hgainNaN, hxnan, fun h => hx.ne' h.2, fun h => hpos.ne' h.1⟩
  have hneg : value (-gain) * value x < 0 := mul_neg_of_neg_of_pos (value_neg_lt_zero hgain) hx
  rw [value_mul_of_infinite hnumber (by rwa [isFinite_neg]), sign_neg hneg, SignType.coe_neg_one,
    neg_one_mul]

/-- Only an infinite gain over no distance leaves a pull undetermined, and over any greater distance
it is the strongest negative one. -/
theorem value_pull_of_isNaN (h : x ≤ y) (hx : (-gain * x).isNaN) (hy : ¬(-gain * y).isNaN) :
    value (-gain * y) = -beyond := by
  obtain ⟨hgainNaN, hpos⟩ := zero_lt_iff.1 hgain
  obtain ⟨hxnan, hynan, hle⟩ := le_iff.1 h
  rw [isNaN_mul, isNaN_neg, or_iff_right hgainNaN, or_iff_right hxnan, value_neg, abs_neg,
    neg_eq_zero, or_iff_left fun h => hpos.ne' h.1] at hx
  obtain ⟨hinf, hzero⟩ := hx
  have hynonneg : 0 ≤ value y := hzero ▸ hle
  have hyzero : value y ≠ 0 := by
    intro hyzero
    refine hy (isNaN_mul.2 (.inr (.inr (.inl ⟨?_, hyzero⟩))))
    rwa [value_neg, abs_neg]
  exact value_pull_of_infinite hgain (hynonneg.lt_of_ne' hyzero)
    fun hfinite => (abs_value_lt hfinite.1).ne hinf

/-- The pull over a greater distance is no greater, whatever the gain is. -/
theorem saturate_pull_anti (hreach : 0.0 ≤ reach) (h : x ≤ y) :
    (within reach).saturate (-gain * y) ≤ (within reach).saturate (-gain * x) := by
  by_cases hynan : (-gain * y).isNaN
  · exact saturate_within_least hreach (.inl hynan) _
  by_cases hxnan : (-gain * x).isNaN
  · exact saturate_within_least hreach (.inr (value_pull_of_isNaN hgain h hxnan hynan)) _
  · have hneg := (value_neg_lt_zero hgain).le
    exact saturate_within_mono hreach (Floating.mul_le_mul_left_of_nonpos hneg h hxnan hynan)

end

/-- The ends of the band are the right way round and not beyond `reach`. -/
structure IsOrdered (band : Band) (reach : Float) : Prop where
  neg_reach_le : -reach ≤ band.low
  low_le_high : band.low ≤ band.high
  high_le_reach : band.high ≤ reach

variable {gain x reach : Float} {target : Band}

/-- A band that pulls back towards one in order is in order, wherever `x` is. -/
theorem isOrdered_pullingBack (hgain : 0.0 < gain) (htarget : target.low ≤ target.high)
    (hreach : 0.0 ≤ reach) : (pullingBack gain x target reach).IsOrdered reach := by
  refine ⟨(saturate_within hreach).1, ?_, (saturate_within hreach).2⟩
  by_cases hlow : (x - target.low).isNaN
  · exact saturate_within_least hreach (.inl (isNaN_mul.2 (.inr (.inl hlow)))) _
  by_cases hhigh : (x - target.high).isNaN
  · -- an infinite `x` is that far from the lower end
    have hfar : value (x - target.low) = beyond := value_sub_of_isNaN htarget hhigh hlow
    have hpull : value (-gain * (x - target.low)) = -beyond :=
      value_pull_of_infinite hgain (hfar ▸ beyond_pos)
        fun hfinite => (lt_of_abs_lt (abs_value_lt hfinite.2)).ne hfar
    exact saturate_within_least hreach (.inr hpull) _
  · exact saturate_pull_anti hgain hreach (Floating.sub_le_sub_left htarget hlow hhigh)

theorem isOrdered_within (hreach : 0.0 ≤ reach) : (within reach).IsOrdered reach := by
  have hband := neg_le_self hreach
  exact ⟨Floating.le_refl (not_isNaN_left hband), hband, Floating.le_refl (not_isNaN_right hband)⟩

end Band

namespace SoftLimits

variable {soft : SoftLimits} {hard : HardLimits}

theorem isOrdered_speeds (hspeed : 0.0 ≤ hard.maxVelocity)
    (hsoft : soft.minPosition ≤ soft.maxPosition) (hgain : 0.0 < soft.positionGain)
    (position : Float) : (soft.speeds hard position).IsOrdered hard.maxVelocity := by
  rw [speeds]
  split
  · exact Band.isOrdered_pullingBack hgain hsoft hspeed
  · exact Band.isOrdered_within hspeed

end SoftLimits

/-- Limits under which every pull on a measured joint is a number and no allowed band is
inverted. -/
structure IsFirm (hard : HardLimits) (soft : SoftLimits) : Prop where
  speed : 0.0 ≤ hard.maxVelocity
  effort : 0.0 ≤ hard.maxEffort
  positionGain : soft.positionGain.isFinite ∧ 0.0 < soft.positionGain
  velocityGain : soft.velocityGain.isFinite ∧ 0.0 < soft.velocityGain
  band : soft.minPosition ≤ soft.maxPosition

/-- Position and velocity of the joint are measured. -/
structure JointState.IsMeasured (joint : JointState) : Prop where
  position : joint.position.isFinite
  velocity : joint.velocity.isFinite

theorem IsFirm.isOrdered_speeds {hard : HardLimits} {soft : SoftLimits} (h : IsFirm hard soft)
    (position : Float) : (soft.speeds hard position).IsOrdered hard.maxVelocity :=
  SoftLimits.isOrdered_speeds h.speed h.band h.positionGain.2 position

theorem IsFirm.isOrdered_efforts {hard : HardLimits} {soft : SoftLimits} (h : IsFirm hard soft)
    (position velocity : Float) :
    (soft.efforts hard position velocity).IsOrdered hard.maxEffort :=
  Band.isOrdered_pullingBack h.velocityGain.2 (h.isOrdered_speeds position).low_le_high h.effort

/-- The allowed speeds and the allowed efforts are in order, an effort command is in the band of
the allowed efforts, and a pending command that is already there is kept. -/
theorem enforce_ordered_bands {n : Nat} {hard : HardLimits} {soft : SoftLimits}
    {hasVelocity : hard.hasVelocity} {hasEffort : hard.hasEffort} (handle : Handle .effort n)
    (hrule : handle.rule = .effort hard soft hasVelocity hasEffort)
    (hspeed : 0.0 ≤ hard.maxVelocity) (heffort : 0.0 ≤ hard.maxEffort)
    (hsoft : soft.minPosition ≤ soft.maxPosition) (hpositionGain : 0.0 < soft.positionGain)
    (hvelocityGain : 0.0 < soft.velocityGain) (period : Period) (joints : Joints n) :
    let joint := joints.get handle.joint
    let speeds := soft.speeds hard joint.position
    let efforts := soft.efforts hard joint.position joint.velocity
    let written := handle.written period joints
    speeds.IsOrdered hard.maxVelocity ∧ efforts.IsOrdered hard.maxEffort ∧
      efforts.Surrounds written ∧ (efforts.Surrounds joint.command → written == joint.command) := by
  intro joint speeds efforts written
  have hspeeds : speeds.IsOrdered hard.maxVelocity :=
    SoftLimits.isOrdered_speeds hspeed hsoft hpositionGain joint.position
  have hefforts : efforts.IsOrdered hard.maxEffort :=
    Band.isOrdered_pullingBack hvelocityGain hspeeds.low_le_high heffort
  have hwritten : written = efforts.saturate joint.command :=
    Handle.written_effort hrule period joints
  rw [hwritten]
  exact ⟨hspeeds, hefforts, Band.surrounds_saturate hefforts.low_le_high, fun h => h.saturate_beq⟩

def stiffSoft : SoftLimits where
  positionGain := Decimal.infinity
  velocityGain := Decimal.infinity
  minPosition := -0.5
  maxPosition := 0.5

def stiffHard : HardLimits :=
  ((HardLimits.unlimited.withPosition (-1.0) 1.0).withVelocity Decimal.infinity).withEffort 4.0

def stiffHandle : Handle .effort 1 := .solo (.effort stiffHard stiffSoft rfl rfl)

/-- A joint at the upper end of the soft band that falls without bound. -/
def stiffJoints : Joints 1 :=
  Vector.replicate 1 { position := 0.5, velocity := -Decimal.infinity, command := -4.0 }

/-- The upper pull on the speed is NaN, and so are both pulls on the effort. -/
theorem enforce_ordered_bands_stiff :
    stiffHandle.rule = .effort stiffHard stiffSoft rfl rfl ∧ 0.0 ≤ stiffHard.maxVelocity ∧
      0.0 ≤ stiffHard.maxEffort ∧ stiffSoft.minPosition ≤ stiffSoft.maxPosition ∧
      0.0 < stiffSoft.positionGain ∧ 0.0 < stiffSoft.velocityGain ∧
      (-stiffSoft.positionGain * (0.5 - stiffSoft.maxPosition)).isNaN ∧
      (stiffSoft.efforts stiffHard 0.5 (-Decimal.infinity)).IsOrdered stiffHard.maxEffort ∧
      stiffHandle.written oneSecond stiffJoints == -4.0 := by
  have hspeed : 0.0 ≤ stiffHard.maxVelocity := by decide +kernel
  have heffort : 0.0 ≤ stiffHard.maxEffort := by decide +kernel
  have hsoft : stiffSoft.minPosition ≤ stiffSoft.maxPosition := by decide +kernel
  have hpositionGain : 0.0 < stiffSoft.positionGain := by decide +kernel
  have hvelocityGain : 0.0 < stiffSoft.velocityGain := by decide +kernel
  obtain ⟨-, hefforts, -, hkept⟩ := enforce_ordered_bands stiffHandle rfl hspeed heffort hsoft
    hpositionGain hvelocityGain oneSecond stiffJoints
  refine ⟨rfl, hspeed, heffort, hsoft, hpositionGain, hvelocityGain, by decide +kernel, hefforts,
    hkept ?_⟩
  exact ⟨by decide +kernel, by decide +kernel⟩

end JointGuard
