import JointGuard.Config.Basic
import JointGuard.Proofs.Joint.Rosters

/-! # What a configuration hands out

The settings that a configuration finds under a name are those that it holds under it.  The hard
limits that are derived from them are in force where they are given, with the values that are
given. -/

namespace JointGuard
open Text

namespace Config

variable {config : Config} {name : String} {settings : JointSettings}

/-- The configuration has settings with this property for the joint of that name. -/
def Has (config : Config) (name : String) (property : JointSettings → Prop) : Prop :=
  ∃ entry ∈ config.joints.entries, entry.1.text = name ∧ property entry.2

theorem settings_eq_ok_iff : config.settings name = .ok settings ↔
    ∃ joint, joint.text = name ∧ (joint, settings) ∈ config.joints.entries := by
  rw [← Roster.find?_eq_some_iff, Config.settings, settings?]
  cases config.joints.find? name <;> simp

/-- Names are distinct, so what the configuration has for a name is what it finds. -/
theorem has_iff (h : config.settings name = .ok settings) {property : JointSettings → Prop} :
    config.Has name property ↔ property settings := by
  obtain ⟨joint, rfl, hmem⟩ := settings_eq_ok_iff.1 h
  constructor
  · rintro ⟨⟨other, found⟩, hfound, hname, hproperty⟩
    have hsettings : config.settings joint.text = .ok found :=
      settings_eq_ok_iff.2 ⟨other, hname, hfound⟩
    cases h.symm.trans hsettings
    exact hproperty
  · exact fun hproperty => ⟨_, hmem, rfl, hproperty⟩

theorem mem_names_of_settings (h : config.settings name = .ok settings) : name ∈ config.names := by
  obtain ⟨joint, rfl, hmem⟩ := settings_eq_ok_iff.1 h
  exact List.mem_map_of_mem (f := fun entry : JointName × JointSettings => entry.1.text) hmem

theorem exists_settings (h : name ∈ config.names) :
    ∃ settings, config.settings name = .ok settings := by
  obtain ⟨⟨joint, settings⟩, hmem, rfl⟩ := List.mem_map.1 h
  exact ⟨settings, settings_eq_ok_iff.2 ⟨joint, rfl, hmem⟩⟩

theorem settings_of_notMem (h : name ∉ config.names) :
    config.settings name = .error (.jointNotFound (.cut name)) := by
  cases hsettings : config.settings name with
  | ok settings => exact absurd (mem_names_of_settings hsettings) h
  | error fault =>
    rw [Config.settings] at hsettings
    split at hsettings
    · cases hsettings
    · exact hsettings.symm

end Config

namespace HardLimits

/-- The position band, if it is in force. -/
def band? (hard : HardLimits) : Option (Float × Float) :=
  if hard.hasPosition then some (hard.minPosition, hard.maxPosition) else none

/-- A limit of magnitude, if it is in force. -/
def magnitude? (hard : HardLimits) : Magnitude → Option Float
  | .velocity => if hard.hasVelocity then some hard.maxVelocity else none
  | .acceleration => if hard.hasAcceleration then some hard.maxAcceleration else none
  | .jerk => if hard.hasJerk then some hard.maxJerk else none
  | .effort => if hard.hasEffort then some hard.maxEffort else none

/-- Each limit is in force if it is given, with the value that is given; the position limits are in
force if both are. -/
structure Carries (hard : HardLimits) (settings : JointSettings) : Prop where
  band : hard.band? = settings.band?
  magnitude : ∀ limit, hard.magnitude? limit = settings.magnitude limit
  wraps : hard.wraps = settings.wraps

end HardLimits

theorem JointSettings.carries_hard (settings : JointSettings) : settings.hard.Carries settings := by
  constructor
  case band =>
    cases hband : settings.band? <;> simp [HardLimits.band?, hard, hband]
  case magnitude =>
    intro limit
    have hgiven (bound : Option Float) :
        (if bound.isSome then some (bound.getD 0.0) else none) = bound := by
      cases bound <;> rfl
    cases limit <;> exact hgiven _
  case wraps => rfl

end JointGuard
