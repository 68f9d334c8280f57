import JointGuard.Decimal.Nearest
import JointGuard.Proofs.Enforce.CommandBounds

/-! # Accepted limits and undetermined pulls

Accepted limits admit a pull that nothing determines: a gain of zero with an end of the soft band
that is infinite or too far away, and an infinite gain at the target itself.  Nothing else is NaN
(`accepted_pulls_isNaN_iff`). -/

namespace JointGuard
open Floating

namespace SoftLimits

variable {soft : SoftLimits} {hard : HardLimits} {position : Float}

/-- Every pull that the limits in force let a law compute. -/
def pulls (soft : SoftLimits) (hard : HardLimits) (position velocity : Float) : List Pull :=
  let speeds := soft.speeds hard position
  (if hard.hasPosition then
    [soft.positionPull hard position soft.minPosition,
      soft.positionPull hard position soft.maxPosition] else []) ++
  (if hard.hasEffort then
    [soft.velocityPull hard velocity speeds.low, soft.velocityPull hard velocity speeds.high]
  else [])

/-- The allowed speeds are numbers wherever the joint is measured. -/
theorem not_isNaN_speeds (soft : SoftLimits) (hspeed : 0.0 < hard.maxVelocity)
    (position : Float) :
    ¬(soft.speeds hard position).low.isNaN ∧ ¬(soft.speeds hard position).high.isNaN := by
  obtain ⟨⟨hlow, -⟩, hhigh, -⟩ := soft.speeds_within (Floating.le_of_lt hspeed) position
  exact ⟨not_isNaN_right hlow, not_isNaN_right hhigh⟩

/-- What valid limits say about each pull. -/
theorem wellPosed_of_mem_pulls (hsound : hard.IsSound) (hvelocity : hard.hasVelocity)
    (hvalid : soft.isValid) {velocity : Float} (hposition : position.isFinite)
    (hmeasured : velocity.isFinite) {pull : Pull}
    (hpull : pull ∈ soft.pulls hard position velocity) :
    ¬pull.gain.isNaN ∧ pull.quantity.isFinite ∧ ¬pull.target.isNaN ∧ 0.0 < pull.reach := by
  obtain ⟨hband, hpositionGain, hvelocityGain⟩ := isValid_iff.1 hvalid
  obtain ⟨hlow, hhigh⟩ := not_isNaN_speeds soft (hsound.velocity hvelocity) position
  rw [pulls, List.mem_append] at hpull
  rcases hpull with h | h
  · split at h
    · have hreach := hsound.velocity hvelocity
      have hgain := not_isNaN_right hpositionGain
      rw [List.mem_pair] at h
      rcases h with rfl | rfl
      · exact ⟨hgain, hposition, not_isNaN_left hband, hreach⟩
      · exact ⟨hgain, hposition, not_isNaN_right hband, hreach⟩
    · cases h
  · split at h
    · rename_i heffort
      have hreach := hsound.effort heffort
      have hgain := not_isNaN_right hvelocityGain
      rw [List.mem_pair] at h
      rcases h with rfl | rfl
      · exact ⟨hgain, hmeasured, hlow, hreach⟩
      · exact ⟨hgain, hmeasured, hhigh, hreach⟩
    · cases h

end SoftLimits

section
variable {config : Config} {name : String} {hard : HardLimits} {soft : SoftLimits}

/-- For the limits of an accepted configuration and finite measurements: the allowed speeds and
efforts are pulls cut to their reach, a pull is NaN exactly if it is undetermined, and then it acts
as the strongest negative one. -/
theorem accepted_pulls_isNaN_iff (hcheck : config.check = .ok ())
    (hhard : config.hardLimits name = .ok hard) (hsoft : config.softLimits name = .ok soft)
    (hvelocity : hard.hasVelocity) {position velocity : Float} (hposition : position.isFinite)
    (hmeasured : velocity.isFinite) :
    let speeds := soft.speeds hard position
    (hard.hasPosition → speeds = ⟨(soft.positionPull hard position soft.minPosition).confined,
      (soft.positionPull hard position soft.maxPosition).confined⟩) ∧
    soft.efforts hard position velocity = ⟨(soft.velocityPull hard velocity speeds.low).confined,
      (soft.velocityPull hard velocity speeds.high).confined⟩ ∧
    ∀ pull ∈ soft.pulls hard position velocity,
      (pull.force.isNaN ↔ pull.IsUndetermined) ∧
        (pull.IsUndetermined → pull.confined = -pull.reach) := by
  refine ⟨SoftLimits.speeds_eq_confined, SoftLimits.efforts_eq_confined velocity, ?_⟩
  intro pull hpull
  have hsound := Config.isSound_hardLimits hcheck hhard
  have hvalid := Config.isValid_softLimits hcheck hsoft
  obtain ⟨hgain, hquantity, htarget, hreach⟩ :=
    SoftLimits.wellPosed_of_mem_pulls hsound hvelocity hvalid hposition hmeasured hpull
  have hnan := pull.isNaN_force_iff hgain hquantity htarget
  exact ⟨hnan, fun h => pull.confined_of_isNaN (hnan.2 h) hreach⟩

end

def endlessSoft : SoftLimits where
  positionGain := 0.0
  velocityGain := 0.0
  minPosition := -0.5
  maxPosition := Decimal.infinity

def endlessSettings : JointSettings where
  minPosition := some (-1.0)
  maxPosition := some 1.0
  maxVelocity := some 10.0
  soft := some endlessSoft

/-- One joint whose soft band has no upper end, and that is not to be pulled at all. -/
def endlessConfig : Config := (Config.empty.insert? (.cut "arm") endlessSettings).getD .empty

def endlessHandle : Handle .position 1 := .solo (.position endlessSettings.hard endlessSoft rfl)

/-- The pull of the joint at rest towards the missing end. -/
def endlessPull : Pull :=
  endlessSoft.positionPull endlessSettings.hard 0.0 endlessSoft.maxPosition

theorem endlessPull_mem_pulls : endlessPull ∈ endlessSoft.pulls endlessSettings.hard 0.0 0.0 :=
  .tail _ (.head _)

/-- At rest in the middle of its bands, the joint is sent down at full speed. -/
theorem accepted_pulls_endless :
    endlessConfig.check = .ok () ∧ endlessConfig.hardLimits "arm" = .ok endlessSettings.hard ∧
      endlessConfig.softLimits "arm" = .ok endlessSoft ∧ endlessSettings.hard.hasVelocity ∧
      (0.0 : Float).isFinite ∧ endlessPull.force.isNaN ∧
      (endlessSoft.speeds endlessSettings.hard 0.0).high = -10.0 ∧
      endlessHandle.written oneSecond (.atRest 1) = -10.0 := by
  have hcheck : endlessConfig.check = .ok () := rfl
  have hhard : endlessConfig.hardLimits "arm" = .ok endlessSettings.hard := rfl
  have hfinite : (0.0 : Float).isFinite := by decide +kernel
  obtain ⟨hspeeds, -, hpulls⟩ :=
    accepted_pulls_isNaN_iff hcheck hhard rfl rfl hfinite hfinite
  obtain ⟨hnan, hconfined⟩ := hpulls endlessPull endlessPull_mem_pulls
  have hundetermined : endlessPull.IsUndetermined := .inr (by decide +kernel)
  refine ⟨hcheck, hhard, rfl, rfl, hfinite, hnan.2 hundetermined, ?_, by decide +kernel⟩
  rw [hspeeds rfl]
  exact hconfined hundetermined

/-- With finite measurements no pull is NaN. -/
def Config.PullsAreNumbers (config : Config) (name : String) : Prop :=
  ∀ hard soft, config.hardLimits name = .ok hard → config.softLimits name = .ok soft →
    hard.hasVelocity → ∀ position velocity : Float, position.isFinite → velocity.isFinite →
    ∀ pull ∈ soft.pulls hard position velocity, ¬pull.force.isNaN

theorem not_pullsAreNumbers_endless :
    endlessConfig.check = .ok () ∧ ¬endlessConfig.PullsAreNumbers "arm" := by
  refine ⟨rfl, ?_⟩
  intro h
  have hfinite : (0.0 : Float).isFinite := by decide +kernel
  have hnumber := h endlessSettings.hard endlessSoft rfl rfl rfl 0.0 0.0 hfinite hfinite
    endlessPull endlessPull_mem_pulls
  exact hnumber (by decide +kernel)

end JointGuard
