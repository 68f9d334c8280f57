import JointGuard.Proofs.Enforce.EffortBand
import JointGuard.Proofs.Floating.Opposite

/-! # Mirror images

The law of effort mode makes no difference between up and down: under limits turned round, a joint
whose state is turned round gets the opposite effort (`enforce_mirrored`).  Saturation treats the
ends of a band alike only where they are in order, and it sends NaN to one of them, so this takes
pulls that are numbers and bands that are not inverted. -/

namespace JointGuard
open Floating

namespace Band

/-- The ends are the opposites of the other ends. -/
structure Mirrors (image band : Band) : Prop where
  low : image.low == -band.high
  high : image.high == -band.low

variable {image band target : Band} {gain reach x y : Float}

theorem mirrors_within (hreach : ¬reach.isNaN) : (within reach).Mirrors (within reach) :=
  ⟨neg_beq_self hreach, beq_neg_neg hreach⟩

/-- In a band in order, raising and lowering can change places. -/
theorem Mirrors.saturate (h : image.Mirrors band) (hordered : band.low ≤ band.high)
    (hy : y == -x) : image.saturate y == -band.saturate x := by
  obtain ⟨hynan, hxnan, hvalue⟩ := beq_neg_iff.1 hy
  obtain ⟨hlow, hhigh', hlowValue⟩ := beq_neg_iff.1 h.low
  obtain ⟨hhigh, hlow', hhighValue⟩ := beq_neg_iff.1 h.high
  refine beq_neg_iff.2 ⟨image.not_isNaN_saturate hynan, band.not_isNaN_saturate hxnan, ?_⟩
  have hends : value band.low ≤ value band.high := (le_iff.1 hordered).2.2
  have hswap : max (min (value x) (value band.high)) (value band.low) =
      min (max (value x) (value band.low)) (value band.high) := by
    rw [max_min_distrib_right, max_eq_left hends]
  rw [Band.saturate, Band.saturate, JointGuard.value_saturate hynan hlow hhigh,
    JointGuard.value_saturate hxnan hlow' hhigh', hvalue, hlowValue, hhighValue, max_neg_neg,
    min_neg_neg, hswap]

/-- Pulling back from the opposite number, towards the opposite band. -/
theorem mirrors_pullingBack (hgain : gain.isFinite ∧ 0.0 < gain) (hreach : 0.0 ≤ reach)
    (hx : x.isFinite) (hy : y == -x) (h : image.Mirrors target) :
    (pullingBack gain y image reach).Mirrors (pullingBack gain x target reach) := by
  have hpull {last first : Float} (hlast : last == -first) :
      -gain * (y - last) == -(-gain * (x - first)) := by
    have hfirst := (beq_neg_iff.1 hlast).2.1
    have hnumber : ¬(Pull.mk gain x first reach).force.isNaN :=
      Pull.not_isNaN_force hgain hx hfirst
    exact mul_beq_neg_right (sub_beq_neg hy hlast (not_isNaN_sub_left hx hfirst)) hnumber
  have hsaturate {pull opposite : Float} (h : opposite == -pull) :
      (within reach).saturate opposite == -(within reach).saturate pull :=
    (mirrors_within (not_isNaN_right hreach)).saturate (isOrdered_within hreach).low_le_high h
  exact ⟨hsaturate (hpull h.low), hsaturate (hpull h.high)⟩

end Band

def HardLimits.mirrored (hard : HardLimits) : HardLimits :=
  { hard with minPosition := -hard.maxPosition, maxPosition := -hard.minPosition }

namespace SoftLimits

def mirrored (soft : SoftLimits) : SoftLimits :=
  { soft with minPosition := -soft.maxPosition, maxPosition := -soft.minPosition }

variable {soft : SoftLimits} {hard : HardLimits} {p q v w : Float}

theorem mirrors_speeds (hfirm : IsFirm hard soft) (hp : p.isFinite) (hq : q == -p) :
    (soft.mirrored.speeds hard.mirrored q).Mirrors (soft.speeds hard p) := by
  by_cases hflag : hard.hasPosition
  · have hband : (Band.mk (-soft.maxPosition) (-soft.minPosition)).Mirrors
        ⟨soft.minPosition, soft.maxPosition⟩ :=
      ⟨neg_beq_self (not_isNaN_right hfirm.band), neg_beq_self (not_isNaN_left hfirm.band)⟩
    have hmirrored : soft.mirrored.speeds hard.mirrored q =
        .pullingBack soft.positionGain q ⟨-soft.maxPosition, -soft.minPosition⟩ hard.maxVelocity :=
      if_pos hflag
    rw [hmirrored, speeds, if_pos hflag]
    exact Band.mirrors_pullingBack hfirm.positionGain hfirm.speed hp hq hband
  · have hmirrored : soft.mirrored.speeds hard.mirrored q = .within hard.maxVelocity :=
      if_neg hflag
    rw [hmirrored, speeds, if_neg hflag]
    exact Band.mirrors_within (not_isNaN_right hfirm.speed)

theorem mirrors_efforts (hfirm : IsFirm hard soft) (hp : p.isFinite) (hq : q == -p)
    (hv : v.isFinite) (hw : w == -v) :
    (soft.mirrored.efforts hard.mirrored q w).Mirrors (soft.efforts hard p v) :=
  Band.mirrors_pullingBack hfirm.velocityGain hfirm.effort hv hw (mirrors_speeds hfirm hp hq)

end SoftLimits

/-- The opposite position, velocity and command. -/
structure JointState.Mirrors (image joint : JointState) : Prop where
  position : image.position == -joint.position
  velocity : image.velocity == -joint.velocity
  command : image.command == -joint.command

/-- Under limits turned round, a joint whose state is turned round gets the opposite effort. -/
theorem enforce_mirrored {n : Nat} {hard : HardLimits} {soft : SoftLimits}
    {hasVelocity : hard.hasVelocity} {hasEffort : hard.hasEffort} (handle mirror : Handle .effort n)
    (hrule : handle.rule = .effort hard soft hasVelocity hasEffort)
    (hmirror : mirror.rule = .effort hard.mirrored soft.mirrored hasVelocity hasEffort)
    (hfirm : IsFirm hard soft) (joints images : Joints n)
    (hmeasured : (joints.get handle.joint).IsMeasured)
    (himage : (images.get mirror.joint).Mirrors (joints.get handle.joint))
    (period otherPeriod : Period) :
    mirror.written otherPeriod images == -handle.written period joints := by
  rw [Handle.written_effort hrule, Handle.written_effort hmirror]
  have hefforts := SoftLimits.mirrors_efforts hfirm hmeasured.position himage.position
    hmeasured.velocity himage.velocity
  exact hefforts.saturate (hfirm.isOrdered_efforts _ _).low_le_high himage.command

def poisedSoft : SoftLimits where
  positionGain := 4.0
  velocityGain := 3.0
  minPosition := -0.25
  maxPosition := 0.5

def poisedHard : HardLimits :=
  ((HardLimits.unlimited.withPosition (-1.0) 2.0).withVelocity 1.0).withEffort 8.0

def poisedHandle : Handle .effort 1 := .solo (.effort poisedHard poisedSoft rfl rfl)

def poisedMirror : Handle .effort 1 :=
  .solo (.effort poisedHard.mirrored poisedSoft.mirrored rfl rfl)

/-- A joint at the upper end, told to go on. -/
def poisedJoints : Joints 1 :=
  Vector.replicate 1 { position := 0.5, velocity := 0.0, command := 5.0 }

def poisedImages : Joints 1 :=
  Vector.replicate 1 { position := -0.5, velocity := -0.0, command := -5.0 }

/-- Both efforts are the negative zero, which is the opposite of the other one as a number alone. -/
theorem enforce_mirrored_poised :
    poisedHandle.rule = .effort poisedHard poisedSoft rfl rfl ∧
      poisedMirror.rule = .effort poisedHard.mirrored poisedSoft.mirrored rfl rfl ∧
      IsFirm poisedHard poisedSoft ∧ (poisedJoints.get 0).IsMeasured ∧
      (poisedImages.get 0).Mirrors (poisedJoints.get 0) ∧
      poisedHandle.written oneSecond poisedJoints = -0.0 ∧
      poisedMirror.written oneSecond poisedImages = -0.0 ∧
      poisedMirror.written oneSecond poisedImages ≠ -poisedHandle.written oneSecond poisedJoints ∧
      poisedMirror.written oneSecond poisedImages ==
        -poisedHandle.written oneSecond poisedJoints := by
  have hfirm : IsFirm poisedHard poisedSoft :=
    { speed := by decide +kernel
      effort := by decide +kernel
      positionGain := by decide +kernel
      velocityGain := by decide +kernel
      band := by decide +kernel }
  have hmeasured : (poisedJoints.get 0).IsMeasured := ⟨by decide +kernel, by decide +kernel⟩
  have himage : (poisedImages.get 0).Mirrors (poisedJoints.get 0) :=
    ⟨by decide +kernel, by decide +kernel, by decide +kernel⟩
  have hopposite := enforce_mirrored poisedHandle poisedMirror rfl rfl hfirm poisedJoints
    poisedImages hmeasured himage oneSecond oneSecond
  exact ⟨rfl, rfl, hfirm, hmeasured, himage, by decide +kernel, by decide +kernel,
    by decide +kernel, hopposite⟩

end JointGuard
