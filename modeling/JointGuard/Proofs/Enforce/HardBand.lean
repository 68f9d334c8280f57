import JointGuard.Proofs.Config.Acceptance
import JointGuard.Proofs.Config.Rules
import JointGuard.Proofs.Enforce.Reach
import JointGuard.Proofs.Joint.Seconds

/-! # The hard band in position mode

The low end of the reach of a period is raised to the hard band and the high end is lowered to it,
each on its own side.  A command is therefore never above the band.  It is below the band exactly
when the upper reach is, and then it is the upper reach (`enforce_escape_iff`). -/

namespace JointGuard
open Floating

namespace Handle

variable {mode : Mode} {n : Nat}

/-- The command that a tick leaves on the joint of the handle. -/
def written (handle : Handle mode n) (period : Period) (joints : Joints n) : Float :=
  (handle.view (handle.enforce period joints)).command

theorem written_eq (handle : Handle mode n) (period : Period) (joints : Joints n) :
    handle.written period joints = handle.rule.command period (joints.get handle.joint) := by
  simp [written, view, getElem_enforce, JointState.withCommand, Vector.get_eq_getElem]

section
variable {hard : HardLimits} {soft : SoftLimits} {hasVelocity : hard.hasVelocity}

theorem written_position {handle : Handle .position n}
    (hrule : handle.rule = .position hard soft hasVelocity) (period : Period) (joints : Joints n) :
    handle.written period joints =
      (soft.reach hard period.inSeconds (joints.get handle.joint).position).saturate
        (joints.get handle.joint).command := by
  rw [written_eq, hrule]
  rfl

theorem written_effort {hasEffort : hard.hasEffort} {handle : Handle .effort n}
    (hrule : handle.rule = .effort hard soft hasVelocity hasEffort) (period : Period)
    (joints : Joints n) : handle.written period joints =
      (soft.efforts hard (joints.get handle.joint).position
        (joints.get handle.joint).velocity).saturate (joints.get handle.joint).command := by
  rw [written_eq, hrule]
  rfl

end

/-- The handle of a machine with one joint. -/
def solo (rule : Rule mode) : Handle mode 1 := ⟨"arm", 0, rule⟩

end Handle

section
variable (x low high : Float) {min max : Float}

/-- The command is the upper reach if that is below the band, and in the band otherwise. -/
theorem saturate_corrected (hband : min ≤ max) :
    (high < min → saturate x (raise low min) (lower high max) = high) ∧
      (¬high < min → min ≤ saturate x (raise low min) (lower high max)) := by
  have hmin := not_isNaN_left hband
  have hmax := not_isNaN_right hband
  have hlow : min ≤ raise x (raise low min) :=
    Floating.le_trans (le_raise_right hmin)
      (le_raise_right fun h => hmin (isNaN_raise.1 h).2)
  constructor
  · intro hhigh
    rw [lower_eq_left (.inr (Floating.lt_of_lt_of_le hhigh hband)), saturate]
    refine lower_eq_right (lt_iff.1 hhigh).1 ?_
    rw [Floating.not_lt (not_isNaN_right hlow) (lt_iff.1 hhigh).1]
    exact Floating.le_of_lt (Floating.lt_of_lt_of_le hhigh hlow)
  · intro hhigh
    refine le_lower hlow (.inr ?_)
    by_cases hnan : high.isNaN
    · rwa [lower_eq_right hmax fun h => (lt_iff.1 h).1 hnan]
    · exact le_lower ((Floating.not_lt hnan hmin).1 hhigh) (.inr hband)

theorem saturate_corrected_le (hband : min ≤ max) :
    saturate x (raise low min) (lower high max) ≤ max := by
  have hmax := not_isNaN_right hband
  refine Floating.le_trans (saturate_le fun h => hmax (isNaN_lower.1 h).2) (lower_le_right hmax)

end

section
variable {n : Nat} {hard : HardLimits} (soft : SoftLimits) (hasVelocity : hard.hasVelocity)

theorem HardLimits.contains_iff (hflag : hard.hasPosition) {position : Float} :
    hard.contains position ↔ hard.minPosition ≤ position ∧ position ≤ hard.maxPosition := by
  simp [contains, hflag]

theorem command_of_hasPosition (hflag : hard.hasPosition) (period : Period) (joint : JointState) :
    (Rule.position hard soft hasVelocity).command period joint =
      saturate joint.command
        (raise (soft.lowerReach hard period.inSeconds joint.position) hard.minPosition)
        (lower (soft.upperReach hard period.inSeconds joint.position) hard.maxPosition) := by
  rw [Rule.command, Rule.band, SoftLimits.reach_of_hasPosition _ _ _ _ hflag]
  rfl

/-- Below the band there is only the upper reach. -/
theorem command_escape (hflag : hard.hasPosition) (hband : hard.minPosition ≤ hard.maxPosition)
    (period : Period) (joint : JointState) :
    let upper := soft.upperReach hard period.inSeconds joint.position
    let command := (Rule.position hard soft hasVelocity).command period joint
    command ≤ hard.maxPosition ∧ (upper < hard.minPosition → command = upper) ∧
      (¬upper < hard.minPosition → hard.minPosition ≤ command) := by
  intro upper command
  have hcommand : command = _ := command_of_hasPosition soft hasVelocity hflag period joint
  obtain ⟨hbelow, habove⟩ := saturate_corrected joint.command
    (soft.lowerReach hard period.inSeconds joint.position) upper hband
  rw [hcommand]
  exact ⟨saturate_corrected_le _ _ _ hband, hbelow, habove⟩

theorem contains_command_iff (hflag : hard.hasPosition)
    (hband : hard.minPosition ≤ hard.maxPosition) (period : Period) (joint : JointState) :
    hard.contains ((Rule.position hard soft hasVelocity).command period joint) ↔
      ¬soft.upperReach hard period.inSeconds joint.position < hard.minPosition := by
  obtain ⟨hle, hbelow, habove⟩ :=
    command_escape soft hasVelocity hflag hband period joint
  rw [HardLimits.contains_iff hflag]
  constructor
  · intro hin hlt
    exact (Floating.not_lt (lt_iff.1 hlt).1 (not_isNaN_left hband)).2 (hbelow hlt ▸ hin.1) hlt
  · intro hupper
    exact ⟨habove hupper, hle⟩

variable {soft hasVelocity}

/-- A position command is a number, never above the hard band, and below it exactly when the upper
reach is; then it is the upper reach. -/
theorem enforce_escape_iff (handle : Handle .position n)
    (hrule : handle.rule = .position hard soft hasVelocity) (hflag : hard.hasPosition)
    (hband : hard.minPosition ≤ hard.maxPosition) (period : Period) (joints : Joints n) :
    let position := (joints.get handle.joint).position
    let upper := position + (soft.speeds hard position).high * period.inSeconds
    let written := handle.written period joints
    ¬written.isNaN ∧ written ≤ hard.maxPosition ∧
      (written < hard.minPosition ↔ upper < hard.minPosition) ∧
      (upper < hard.minPosition → written = upper) := by
  intro position upper written
  have hwritten : written =
      (Rule.position hard soft hasVelocity).command period (joints.get handle.joint) :=
    hrule ▸ handle.written_eq period joints
  obtain ⟨hle, hbelow, habove⟩ :=
    command_escape soft hasVelocity hflag hband period (joints.get handle.joint)
  rw [← hwritten] at hle hbelow habove
  have hescape : written < hard.minPosition ↔ upper < hard.minPosition := by
    constructor
    · intro hlt
      by_contra hupper
      exact (Floating.not_lt (not_isNaN_left hle) (not_isNaN_left hband)).2 (habove hupper) hlt
    · intro hlt
      rwa [show written = upper from hbelow hlt]
  exact ⟨not_isNaN_left hle, hle, hescape, hbelow⟩

end

def sunkenSoft : SoftLimits where
  positionGain := 10.0
  velocityGain := 0.0
  minPosition := -3.0
  maxPosition := -2.0

def sunkenSettings : JointSettings where
  minPosition := some (-1.0)
  maxPosition := some 1.0
  maxVelocity := some 10.0
  soft := some sunkenSoft

/-- One joint whose soft band lies below its hard band. -/
def sunkenConfig : Config := (Config.empty.insert? (.cut "arm") sunkenSettings).getD .empty

def sunkenRule : Rule .position := .position sunkenSettings.hard sunkenSoft rfl

def sunkenHandle : Handle .position 1 := .solo sunkenRule

def oneSecond : Period := ⟨1, 0, by decide⟩

/-- The upper reach of one second is ten below the position at rest, and is what is written. -/
theorem enforce_escape_sunken :
    sunkenHandle.rule = .position sunkenSettings.hard sunkenSoft rfl ∧
      sunkenSettings.hard.hasPosition ∧
      sunkenSettings.hard.minPosition ≤ sunkenSettings.hard.maxPosition ∧
      sunkenHandle.written oneSecond (.atRest 1) = -10.0 := by
  have hband : sunkenSettings.hard.minPosition ≤ sunkenSettings.hard.maxPosition := by
    decide +kernel
  obtain ⟨-, -, -, hwritten⟩ :=
    enforce_escape_iff sunkenHandle rfl rfl hband oneSecond (.atRest 1)
  refine ⟨rfl, rfl, hband, (hwritten ?_).trans ?_⟩ <;> decide +kernel

/-- For an accepted configuration and a joint in its hard band: a tick keeps the band unless the
upper reach is below it, and it does keep it up to the upper end of the soft band. -/
theorem contains_enforce_iff {config : Config} {name : String} {hard : HardLimits}
    {soft : SoftLimits} {hasVelocity : hard.hasVelocity} (hcheck : config.check = .ok ())
    (hconfig : config.rule name .position = .ok (.position hard soft hasVelocity))
    (hflag : hard.hasPosition) {n : Nat} (handle : Handle .position n)
    (hrule : handle.rule = .position hard soft hasVelocity) (joints : Joints n)
    (hposition : hard.contains (joints.get handle.joint).position) {period : Period}
    (hpositive : period.IsPositive) :
    let position := (joints.get handle.joint).position
    let upper := position + (soft.speeds hard position).high * period.inSeconds
    let written := handle.written period joints
    (hard.contains written ↔ ¬upper < hard.minPosition) ∧
      (position.isFinite → soft.maxPosition.isFinite → position ≤ soft.maxPosition →
        soft.positionGain.isFinite → 0.0 < soft.positionGain → hard.contains written) := by
  intro position upper written
  have hsound := Config.isSound_hardLimits hcheck (Config.hardLimits_of_rule hconfig)
  have hband : hard.minPosition ≤ hard.maxPosition := Floating.le_of_lt (hsound.position hflag)
  have hwritten : written =
      (Rule.position hard soft hasVelocity).command period (joints.get handle.joint) :=
    hrule ▸ handle.written_eq period joints
  have hkept := contains_command_iff soft hasVelocity hflag hband period (joints.get handle.joint)
  rw [← hwritten] at hkept
  refine ⟨hkept, ?_⟩
  rintro hfinite - hbelow hgain hpos
  apply hkept.2
  have hmin := ((HardLimits.contains_iff hflag).1 hposition).1
  have hreach := SoftLimits.le_upperReach hflag ⟨hgain, hpos⟩ hfinite
    period.isFinite_inSeconds (Period.value_inSeconds_pos hpositive)
    (Floating.le_of_lt (hsound.velocity hasVelocity)) hbelow
  exact (Floating.not_lt (not_isNaN_right hreach) (not_isNaN_left hmin)).2
    (Floating.le_trans hmin hreach)

theorem contains_enforce_sunken :
    sunkenConfig.check = .ok () ∧ sunkenConfig.rule "arm" .position = .ok sunkenRule ∧
      sunkenSettings.hard.hasPosition ∧ sunkenSettings.hard.contains JointState.atRest.position ∧
      oneSecond.IsPositive ∧
      ¬sunkenSettings.hard.contains (sunkenHandle.written oneSecond (.atRest 1)) := by
  have hposition : sunkenSettings.hard.contains JointState.atRest.position := by decide +kernel
  have hperiod : oneSecond.IsPositive := by decide
  have hconfig : sunkenConfig.rule "arm" .position =
      .ok (.position sunkenSettings.hard sunkenSoft rfl) := rfl
  obtain ⟨hkept, -⟩ :=
    contains_enforce_iff rfl hconfig rfl sunkenHandle rfl (.atRest 1) hposition hperiod
  refine ⟨rfl, rfl, rfl, hposition, hperiod, ?_⟩
  intro h
  exact hkept.1 h (by decide +kernel)

/-- The law of the hard band: no tick takes the command of a joint in the band out of it. -/
def KeepsHardBand (config : Config) (name : String) : Prop :=
  ∀ {n : Nat} (handle : Handle .position n), config.rule name .position = .ok handle.rule →
    handle.rule.hard.hasPosition → ∀ joints : Joints n,
    handle.rule.hard.contains (joints.get handle.joint).position →
    ∀ period : Period, period.IsPositive → handle.rule.hard.contains (handle.written period joints)

/-- The law fails for an accepted configuration: the high end is not raised to the hard band. -/
theorem not_keepsHardBand_sunken :
    sunkenConfig.check = .ok () ∧ ¬KeepsHardBand sunkenConfig "arm" := by
  refine ⟨rfl, ?_⟩
  intro h
  have hkept := h sunkenHandle rfl rfl (.atRest 1) (by decide +kernel) oneSecond (by decide)
  exact absurd hkept (by decide +kernel)

end JointGuard
