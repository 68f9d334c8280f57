import JointGuard.Decimal.Nearest
import JointGuard.Proofs.Enforce.EffortBand

/-! # Monotone efforts

The further up a joint is and the faster it moves up, the lower both ends of the band of its allowed
efforts are, and saturation keeps the order of commands.  So to be further up, faster, or commanded
less never raises the effort (`enforce_antitone`).  Neither finite gains nor a soft band in order
are needed for that: a pull that is NaN counts as the strongest negative one, as it should where
only an infinite gain over no distance makes it NaN (`Band.saturate_pull_anti`). -/

namespace JointGuard
open Floating

namespace Band

/-- Neither end of the band is above that of the other. -/
structure IsBelow (band other : Band) : Prop where
  low_le_low : band.low ≤ other.low
  high_le_high : band.high ≤ other.high

variable {band other target lower : Band} {gain reach x y : Float}

theorem IsBelow.saturate_mono (h : band.IsBelow other) (hxy : x ≤ y) :
    band.saturate x ≤ other.saturate y :=
  JointGuard.saturate_mono hxy h.low_le_low h.high_le_high

/-- A band that pulls back from further up, or towards a lower one, is below. -/
theorem pullingBack_anti (hgain : 0.0 < gain) (hreach : 0.0 ≤ reach) (hx : x.isFinite)
    (hy : y.isFinite) (hxy : x ≤ y) (h : lower.IsBelow target) :
    (pullingBack gain y lower reach).IsBelow (pullingBack gain x target reach) := by
  have hdistance {end₁ end₂ : Float} (hends : end₁ ≤ end₂) : x - end₂ ≤ y - end₁ :=
    Floating.sub_le_sub hxy hends (not_isNaN_sub_left hx (not_isNaN_right hends))
      (not_isNaN_sub_left hy (not_isNaN_left hends))
  exact ⟨saturate_pull_anti hgain hreach (hdistance h.low_le_low),
    saturate_pull_anti hgain hreach (hdistance h.high_le_high)⟩

theorem isBelow_refl (hlow : ¬band.low.isNaN) (hhigh : ¬band.high.isNaN) : band.IsBelow band :=
  ⟨Floating.le_refl hlow, Floating.le_refl hhigh⟩

end Band

namespace SoftLimits

variable {soft : SoftLimits} {hard : HardLimits}

section
variable (hspeed : 0.0 ≤ hard.maxVelocity) (hpositionGain : 0.0 < soft.positionGain)
  (hmin : ¬soft.minPosition.isNaN) (hmax : ¬soft.maxPosition.isNaN) {p q : Float}
  (hp : p.isFinite) (hq : q.isFinite) (hpq : p ≤ q)
include hspeed hpositionGain hmin hmax hp hq hpq

/-- Further up, neither allowed speed is greater. -/
theorem speeds_anti : (soft.speeds hard q).IsBelow (soft.speeds hard p) := by
  rw [speeds, speeds]
  split
  · exact Band.pullingBack_anti hpositionGain hspeed hp hq hpq (Band.isBelow_refl hmin hmax)
  · have hnan := not_isNaN_right hspeed
    exact Band.isBelow_refl (by rwa [Band.within, isNaN_neg]) hnan

/-- Further up and faster, neither allowed effort is greater. -/
theorem efforts_anti (heffort : 0.0 ≤ hard.maxEffort) (hvelocityGain : 0.0 < soft.velocityGain)
    {v w : Float} (hv : v.isFinite) (hw : w.isFinite) (hvw : v ≤ w) :
    (soft.efforts hard q w).IsBelow (soft.efforts hard p v) :=
  Band.pullingBack_anti hvelocityGain heffort hv hw hvw
    (speeds_anti hspeed hpositionGain hmin hmax hp hq hpq)

end

end SoftLimits

/-- Ahead of another joint: no less far up, no slower, and commanded no more. -/
structure JointState.IsAhead (ahead joint : JointState) : Prop where
  position : joint.position ≤ ahead.position
  velocity : joint.velocity ≤ ahead.velocity
  command : ahead.command ≤ joint.command

/-- Where the joint is ahead, the effort is no greater. -/
theorem enforce_antitone {n : Nat} {hard : HardLimits} {soft : SoftLimits}
    {hasVelocity : hard.hasVelocity} {hasEffort : hard.hasEffort} (handle : Handle .effort n)
    (hrule : handle.rule = .effort hard soft hasVelocity hasEffort)
    (hspeed : 0.0 ≤ hard.maxVelocity) (heffort : 0.0 ≤ hard.maxEffort)
    (hpositionGain : 0.0 < soft.positionGain) (hvelocityGain : 0.0 < soft.velocityGain)
    (hmin : ¬soft.minPosition.isNaN) (hmax : ¬soft.maxPosition.isNaN) (joints others : Joints n)
    (hahead : (others.get handle.joint).IsAhead (joints.get handle.joint))
    (hjoint : (joints.get handle.joint).IsMeasured) (hother : (others.get handle.joint).IsMeasured)
    (period otherPeriod : Period) :
    handle.written otherPeriod others ≤ handle.written period joints := by
  rw [Handle.written_effort hrule, Handle.written_effort hrule]
  have hefforts := SoftLimits.efforts_anti hspeed hpositionGain hmin hmax hjoint.position
    hother.position hahead.position heffort hvelocityGain hjoint.velocity hother.velocity
    hahead.velocity
  exact hefforts.saturate_mono hahead.command

/-- The soft band is inverted, and any excess of speed takes the whole effort. -/
def abruptSoft : SoftLimits where
  positionGain := 2.0
  velocityGain := Decimal.infinity
  minPosition := 0.5
  maxPosition := -0.5

def abruptHard : HardLimits :=
  ((HardLimits.unlimited.withPosition (-1.0) 1.0).withVelocity 1.0).withEffort 4.0

def abruptHandle : Handle .effort 1 := .solo (.effort abruptHard abruptSoft rfl rfl)

def abruptJoints : Joints 1 :=
  Vector.replicate 1 { position := -0.75, velocity := 0.25, command := 3.0 }

/-- The same joint just at the greatest allowed speed, commanded less. -/
def fasterJoints : Joints 1 :=
  Vector.replicate 1 { position := -0.75, velocity := 0.5, command := 2.0 }

/-- The upper pull on the faster joint is NaN, and the effort falls all the same. -/
theorem enforce_antitone_abrupt :
    abruptHandle.rule = .effort abruptHard abruptSoft rfl rfl ∧ 0.0 ≤ abruptHard.maxVelocity ∧
      0.0 ≤ abruptHard.maxEffort ∧ 0.0 < abruptSoft.positionGain ∧
      0.0 < abruptSoft.velocityGain ∧ ¬abruptSoft.minPosition.isNaN ∧
      ¬abruptSoft.maxPosition.isNaN ∧ (fasterJoints.get 0).IsAhead (abruptJoints.get 0) ∧
      (abruptJoints.get 0).IsMeasured ∧ (fasterJoints.get 0).IsMeasured ∧
      (-abruptSoft.velocityGain * (0.5 - (abruptSoft.speeds abruptHard (-0.75)).high)).isNaN ∧
      abruptHandle.written oneSecond abruptJoints = 4.0 ∧
      abruptHandle.written oneSecond fasterJoints = -4.0 ∧
      abruptHandle.written oneSecond fasterJoints ≤
        abruptHandle.written oneSecond abruptJoints := by
  have hspeed : 0.0 ≤ abruptHard.maxVelocity := by decide +kernel
  have heffort : 0.0 ≤ abruptHard.maxEffort := by decide +kernel
  have hpositionGain : 0.0 < abruptSoft.positionGain := by decide +kernel
  have hvelocityGain : 0.0 < abruptSoft.velocityGain := by decide +kernel
  have hmin : ¬abruptSoft.minPosition.isNaN := by decide +kernel
  have hmax : ¬abruptSoft.maxPosition.isNaN := by decide +kernel
  have hahead : (fasterJoints.get 0).IsAhead (abruptJoints.get 0) :=
    ⟨by decide +kernel, by decide +kernel, by decide +kernel⟩
  have hjoint : (abruptJoints.get 0).IsMeasured := ⟨by decide +kernel, by decide +kernel⟩
  have hother : (fasterJoints.get 0).IsMeasured := ⟨by decide +kernel, by decide +kernel⟩
  have hle := enforce_antitone abruptHandle rfl hspeed heffort hpositionGain hvelocityGain hmin hmax
    abruptJoints fasterJoints hahead hjoint hother oneSecond oneSecond
  exact ⟨rfl, hspeed, heffort, hpositionGain, hvelocityGain, hmin, hmax, hahead, hjoint, hother,
    by decide +kernel, by decide +kernel, by decide +kernel, hle⟩

end JointGuard
