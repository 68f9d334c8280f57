import JointGuard.Proofs.Config.Lookup
import JointGuard.Proofs.Floating.Value

/-! # What acceptance says about the limits

An accepted configuration has no fault in any joint, so every limit in force is sound: a position
band has room, and the greatest magnitudes are above zero. -/

namespace JointGuard

/-- The limits in force are usable. -/
structure HardLimits.IsSound (hard : HardLimits) : Prop where
  position : hard.hasPosition → hard.minPosition < hard.maxPosition
  velocity : hard.hasVelocity → 0.0 < hard.maxVelocity
  acceleration : hard.hasAcceleration → 0.0 < hard.maxAcceleration
  jerk : hard.hasJerk → 0.0 < hard.maxJerk
  effort : hard.hasEffort → 0.0 < hard.maxEffort

theorem SoftLimits.isValid_iff {soft : SoftLimits} : soft.isValid ↔
    soft.minPosition ≤ soft.maxPosition ∧ 0.0 ≤ soft.positionGain ∧ 0.0 ≤ soft.velocityGain := by
  simp [isValid, and_assoc]

namespace JointSettings

variable {settings : JointSettings} {joint : JointName}

theorem lt_of_positionFaults (h : settings.positionFaults joint = []) {min max : Float}
    (hmin : settings.minPosition = some min) (hmax : settings.maxPosition = some max) :
    min < max := by
  simp only [positionFaults, hmin, hmax, List.append_eq_nil_iff] at h
  by_contra hlt
  simp [hlt] at h

theorem zero_lt_of_magnitudeFaults (h : settings.magnitudeFaults = []) {limit : Magnitude}
    {bound : Float} (hbound : settings.magnitude limit = some bound) : 0.0 < bound := by
  have hall : limit ∈ Magnitude.all := by cases limit <;> decide
  have hnone := List.filterMap_eq_nil_iff.1 h limit hall
  simp only [hbound] at hnone
  by_contra hlt
  simp [hlt] at hnone

/-- A magnitude that is in force was given, and is above zero. -/
theorem zero_lt_getD (h : settings.magnitudeFaults = []) (limit : Magnitude)
    (hflag : (settings.magnitude limit).isSome) :
    0.0 < (settings.magnitude limit).getD 0.0 := by
  obtain ⟨bound, hbound⟩ := Option.isSome_iff_exists.1 hflag
  rw [hbound]
  exact zero_lt_of_magnitudeFaults h hbound

theorem isSound_hard (h : settings.faults joint = []) : settings.hard.IsSound := by
  simp only [faults, List.append_eq_nil_iff] at h
  obtain ⟨⟨hposition, hmagnitude⟩, -⟩ := h
  refine ⟨fun hflag => ?_, zero_lt_getD hmagnitude .velocity, zero_lt_getD hmagnitude .acceleration,
    zero_lt_getD hmagnitude .jerk, zero_lt_getD hmagnitude .effort⟩
  cases hmin : settings.minPosition with
  | none => simp [hard, band?, hmin] at hflag
  | some min =>
    cases hmax : settings.maxPosition with
    | none => simp [hard, band?, hmin, hmax] at hflag
    | some max => simpa [hard, band?, hmin, hmax] using lt_of_positionFaults hposition hmin hmax

theorem isValid_of_faults (h : settings.faults joint = []) {soft : SoftLimits}
    (hsoft : settings.soft = some soft) : soft.isValid := by
  simp only [faults, List.append_eq_nil_iff] at h
  obtain ⟨-, hnone⟩ := h
  simp only [softFaults, hsoft] at hnone
  by_contra hvalid
  simp [hvalid] at hnone

end JointSettings

namespace Config

variable {config : Config} {name : String}

theorem faults_of_settings (hcheck : config.check = .ok ()) {settings : JointSettings}
    (h : config.settings name = .ok settings) : ∃ joint, settings.faults joint = [] := by
  obtain ⟨joint, -, hmem⟩ := settings_eq_ok_iff.1 h
  have hnone := List.flatMap_eq_nil_iff.1 (check_eq_ok_iff.1 hcheck)
  exact ⟨joint, hnone _ hmem⟩

theorem hardLimits_eq_ok_iff {hard : HardLimits} : config.hardLimits name = .ok hard ↔
    ∃ settings, config.settings name = .ok settings ∧ settings.hard = hard := by
  rw [hardLimits]
  cases config.settings name <;> simp [Except.map]

/-- Whatever limits an accepted configuration hands out are sound. -/
theorem isSound_hardLimits (hcheck : config.check = .ok ()) {hard : HardLimits}
    (h : config.hardLimits name = .ok hard) : hard.IsSound := by
  obtain ⟨settings, hsettings, rfl⟩ := hardLimits_eq_ok_iff.1 h
  obtain ⟨joint, hfaults⟩ := faults_of_settings hcheck hsettings
  exact JointSettings.isSound_hard hfaults

theorem softLimits_eq_ok_iff {soft : SoftLimits} : config.softLimits name = .ok soft ↔
    ∃ settings, config.settings name = .ok settings ∧ settings.soft = some soft := by
  rw [softLimits]
  cases config.settings name with
  | error fault => simp [bind, Except.bind]
  | ok settings => cases hsoft : settings.soft <;> simp [bind, Except.bind, hsoft]

/-- Whatever soft limits an accepted configuration hands out are valid. -/
theorem isValid_softLimits (hcheck : config.check = .ok ()) {soft : SoftLimits}
    (h : config.softLimits name = .ok soft) : soft.isValid := by
  obtain ⟨settings, hsettings, hsoft⟩ := softLimits_eq_ok_iff.1 h
  obtain ⟨joint, hfaults⟩ := faults_of_settings hcheck hsettings
  exact JointSettings.isValid_of_faults hfaults hsoft

end Config

end JointGuard
