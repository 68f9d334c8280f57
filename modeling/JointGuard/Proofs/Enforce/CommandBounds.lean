import JointGuard.Proofs.Enforce.HardBand

/-! # Bounds on commands in every mode

From an accepted configuration a velocity or effort command is always a number within the greatest
magnitude.  A position command is NaN only where nothing says what it should be: no position limits,
no measured position and no pending command (`enforce_isConfined`). -/

namespace JointGuard
open Floating

/-- What a tick of a mode may leave as the command of a joint. -/
def IsConfined (hard : HardLimits) (joint : JointState) (command : Float) : Mode → Prop
  | .position =>
    command.isNaN ↔ hard.hasPosition = false ∧ joint.position.isNaN ∧ joint.command.isNaN
  | .effort => ¬command.isNaN ∧ -hard.maxEffort ≤ command ∧ command ≤ hard.maxEffort
  | .velocity => ¬command.isNaN ∧ -hard.maxVelocity ≤ command ∧ command ≤ hard.maxVelocity

section
variable {hard : HardLimits} {soft : SoftLimits} {period : Period} {joint : JointState}

theorem velocity_isConfined {hasVelocity : hard.hasVelocity} (hsound : hard.IsSound) :
    IsConfined hard joint ((Rule.velocity hard hasVelocity).command period joint) .velocity := by
  obtain ⟨hlow, hhigh⟩ := Band.saturate_within (x := joint.command)
    (Floating.le_of_lt (hsound.velocity hasVelocity))
  exact ⟨not_isNaN_right hlow, hlow, hhigh⟩

theorem effort_isConfined {hasVelocity : hard.hasVelocity} {hasEffort : hard.hasEffort}
    (hsound : hard.IsSound) :
    IsConfined hard joint ((Rule.effort hard soft hasVelocity hasEffort).command period joint)
      .effort := by
  have heffort : 0.0 ≤ hard.maxEffort := Floating.le_of_lt (hsound.effort hasEffort)
  have hlow : -hard.maxEffort ≤
      (Rule.effort hard soft hasVelocity hasEffort).command period joint :=
    le_saturate_of_le (Band.saturate_within heffort).1 (Band.saturate_within heffort).1
  refine ⟨not_isNaN_right hlow, hlow, ?_⟩
  exact Floating.le_trans (saturate_le (Band.not_isNaN_saturate_within (not_isNaN_right heffort)))
    (Band.saturate_within heffort).2

/-- Without position limits the two reaches are NaN together only for a NaN position: an infinite
position is cancelled by at most one of them. -/
theorem isNaN_reaches_iff {position seconds : Float} (hflag : hard.hasPosition = false)
    (hspeed : 0.0 < hard.maxVelocity) (hseconds : seconds.isFinite) (hpos : 0 < value seconds) :
    (soft.lowerReach hard seconds position).isNaN ∧ (soft.upperReach hard seconds position).isNaN ↔
      position.isNaN := by
  obtain ⟨hnan, hspeedPos⟩ := zero_lt_iff.1 hspeed
  have hspeeds : soft.speeds hard position = .within hard.maxVelocity := by
    simp [SoftLimits.speeds, hflag]
  have hup := not_isNaN_mul_left hnan hseconds hpos.ne'
  have hdown := not_isNaN_mul_left (x := -hard.maxVelocity) (by rwa [isNaN_neg]) hseconds hpos.ne'
  have hupValue : 0 ≤ value (hard.maxVelocity * seconds) :=
    value_mul_nonneg (mul_nonneg hspeedPos.le hpos.le)
  have hdownValue : value (-hard.maxVelocity * seconds) ≤ 0 := by
    apply value_mul_nonpos
    rw [value_neg, neg_mul]
    exact neg_nonpos.2 (mul_nonneg hspeedPos.le hpos.le)
  rw [SoftLimits.lowerReach, SoftLimits.upperReach, hspeeds, Band.within, isNaN_add, isNaN_add]
  constructor
  · rintro ⟨hlow, hhigh⟩
    by_contra hposition
    obtain ⟨hinf, hcancelLow⟩ := (hlow.resolve_left hposition).resolve_left hdown
    obtain ⟨-, hcancelHigh⟩ := (hhigh.resolve_left hposition).resolve_left hup
    have hzero : value position = 0 := by linarith
    rw [hzero, abs_zero] at hinf
    exact beyond_pos.ne hinf
  · exact fun h => ⟨.inl h, .inl h⟩

theorem position_isConfined {hasVelocity : hard.hasVelocity} (hsound : hard.IsSound)
    (hpositive : period.IsPositive) :
    IsConfined hard joint ((Rule.position hard soft hasVelocity).command period joint)
      .position := by
  have hspeed := hsound.velocity hasVelocity
  rw [IsConfined]
  cases hflag : hard.hasPosition with
  | true =>
    rw [command_of_hasPosition soft hasVelocity hflag]
    refine iff_of_false ?_ (by simp)
    exact not_isNaN_left (saturate_corrected_le _ _ _ (Floating.le_of_lt (hsound.position hflag)))
  | false =>
    rw [Rule.command, Rule.band, SoftLimits.reach_of_not_hasPosition _ _ _ _ hflag, Band.saturate,
      isNaN_saturate, isNaN_reaches_iff hflag hspeed period.isFinite_inSeconds
      (Period.value_inSeconds_pos hpositive)]
    simp [and_comm]

end

/-- Whatever rule the limits of an accepted configuration allow, with any soft limits: the command
that a tick writes is confined. -/
theorem enforce_isConfined {config : Config} {name : String} {hard : HardLimits}
    (hcheck : config.check = .ok ()) (hhard : config.hardLimits name = .ok hard) {mode : Mode}
    {n : Nat} (handle : Handle mode n) {label : String} {soft : SoftLimits}
    (hrule : Rule.ofLimits mode label hard soft = .ok handle.rule) {period : Period}
    (hpositive : period.IsPositive) (joints : Joints n) :
    IsConfined hard (joints.get handle.joint) (handle.written period joints) mode := by
  have hsound := Config.isSound_hardLimits hcheck hhard
  rw [handle.written_eq period joints]
  cases mode with
  | position =>
    obtain ⟨hasVelocity, h⟩ := Rule.eq_of_ofPosition hrule
    rw [h]
    exact position_isConfined hsound hpositive
  | effort =>
    obtain ⟨hasVelocity, hasEffort, h⟩ := Rule.eq_of_ofEffort hrule
    rw [h]
    exact effort_isConfined hsound
  | velocity =>
    obtain ⟨hasVelocity, h⟩ := Rule.eq_of_ofVelocity hrule
    rw [h]
    exact velocity_isConfined hsound

def wheelSettings : JointSettings where
  maxVelocity := some 2.0
  maxEffort := some 5.0

/-- One joint without position limits. -/
def wheelConfig : Config := (Config.empty.insert? (.cut "wheel") wheelSettings).getD .empty

def lostJoint : JointState where
  position := 0.0 / 0.0
  velocity := 0.0 / 0.0
  command := 0.0 / 0.0

def lostJoints : Joints 1 := Vector.replicate 1 lostJoint

def softZero : SoftLimits := ⟨0.0, 0.0, 0.0, 0.0⟩

/-- A wheel of which nothing is known: only the position command is NaN. -/
theorem wheel_isConfined :
    wheelConfig.check = .ok () ∧ wheelConfig.hardLimits "wheel" = .ok wheelSettings.hard ∧
      oneSecond.IsPositive ∧
      IsConfined wheelSettings.hard lostJoint
        ((Handle.solo (.position wheelSettings.hard softZero rfl)).written oneSecond lostJoints)
        .position ∧
      IsConfined wheelSettings.hard lostJoint
        ((Handle.solo (.effort wheelSettings.hard softZero rfl rfl)).written oneSecond lostJoints)
        .effort ∧
      IsConfined wheelSettings.hard lostJoint
        ((Handle.solo (.velocity wheelSettings.hard rfl)).written oneSecond lostJoints)
        .velocity := by
  have hperiod : oneSecond.IsPositive := by decide
  have hcheck : wheelConfig.check = .ok () := rfl
  have hhard : wheelConfig.hardLimits "wheel" = .ok wheelSettings.hard := rfl
  have hconfined : ∀ {mode : Mode} (rule : Rule mode),
      Rule.ofLimits mode "wheel" wheelSettings.hard softZero = .ok rule →
      IsConfined wheelSettings.hard lostJoint
        ((Handle.solo rule).written oneSecond lostJoints) mode :=
    fun rule hrule => enforce_isConfined hcheck hhard (.solo rule) hrule hperiod lostJoints
  exact ⟨hcheck, hhard, hperiod, hconfined _ rfl, hconfined _ rfl, hconfined _ rfl⟩

end JointGuard
