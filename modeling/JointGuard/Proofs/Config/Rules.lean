import JointGuard.Proofs.Screening
import JointGuard.Registry.Session

/-! # Rules from a configuration

A rule that was built carries the limits it was built from, so the limits of a rule that comes out
of a configuration are the hard limits of its joint there. -/

namespace JointGuard

namespace Rule

variable {name : String} {hard : HardLimits} {soft : SoftLimits}

theorem eq_of_ofPosition {rule : Rule .position} (h : ofPosition name hard soft = .ok rule) :
    ∃ hasVelocity, rule = .position hard soft hasVelocity := by
  rw [ofPosition] at h
  split at h
  · cases h
    exact ⟨_, rfl⟩
  · cases h

theorem eq_of_ofEffort {rule : Rule .effort} (h : ofEffort name hard soft = .ok rule) :
    ∃ hasVelocity hasEffort, rule = .effort hard soft hasVelocity hasEffort := by
  rw [ofEffort] at h
  split at h
  · split at h
    · cases h
      exact ⟨_, _, rfl⟩
    · cases h
  · cases h

theorem eq_of_ofVelocity {rule : Rule .velocity} (h : ofVelocity name hard = .ok rule) :
    ∃ hasVelocity, rule = .velocity hard hasVelocity := by
  rw [ofVelocity] at h
  split at h
  · cases h
    exact ⟨_, rfl⟩
  · cases h

end Rule

theorem Config.hardLimits_of_rule {config : Config} {name : String} {mode : Mode}
    {rule : Rule mode} (h : config.rule name mode = .ok rule) :
    config.hardLimits name = .ok rule.hard := by
  cases mode with
  | position =>
    obtain ⟨hard, hhard, h⟩ := exists_ok_of_bind h
    obtain ⟨soft, -, h⟩ := exists_ok_of_bind h
    obtain ⟨_, rfl⟩ := Rule.eq_of_ofPosition h
    exact hhard
  | effort =>
    obtain ⟨hard, hhard, h⟩ := exists_ok_of_bind h
    obtain ⟨soft, -, h⟩ := exists_ok_of_bind h
    obtain ⟨_, _, rfl⟩ := Rule.eq_of_ofEffort h
    exact hhard
  | velocity =>
    obtain ⟨hard, hhard, h⟩ := exists_ok_of_bind h
    obtain ⟨_, rfl⟩ := Rule.eq_of_ofVelocity h
    exact hhard

end JointGuard
