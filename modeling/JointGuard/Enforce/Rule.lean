import JointGuard.Enforce.Saturate
import JointGuard.Fault
import JointGuard.Joint.Period
import JointGuard.Joint.State
import JointGuard.Limits.Soft

/-! # Enforcement rules

A rule confines the pending command of a joint at each tick.  In every mode it computes a band from
the limits, the measured state and the period, and saturates the command into it:

* a position command stays within the reach of one period at the allowed speed, cut to the hard
  band;
* an effort command may only drive the joint towards the allowed speeds;
* a velocity command stays within the greatest speed.

The allowed speeds shrink near the ends of the soft band and point back into it beyond them. -/

namespace JointGuard
open Text

inductive Mode where
  | position
  | effort
  | velocity
  deriving DecidableEq

namespace SoftLimits

/-- The speeds allowed at a position. -/
def speeds (soft : SoftLimits) (hard : HardLimits) (position : Float) : Band :=
  if hard.hasPosition then
    .pullingBack soft.positionGain position ⟨soft.minPosition, soft.maxPosition⟩ hard.maxVelocity
  else
    .within hard.maxVelocity

/-- Where the joint can be after `seconds` at an allowed speed, as far as the hard band goes. -/
def reach (soft : SoftLimits) (hard : HardLimits) (seconds position : Float) : Band :=
  let speeds := soft.speeds hard position
  let low := position + speeds.low * seconds
  let high := position + speeds.high * seconds
  if hard.hasPosition then ⟨raise low hard.minPosition, lower high hard.maxPosition⟩
  else ⟨low, high⟩

/-- The efforts that drive the joint towards the allowed speeds. -/
def efforts (soft : SoftLimits) (hard : HardLimits) (position velocity : Float) : Band :=
  .pullingBack soft.velocityGain velocity (soft.speeds hard position) hard.maxEffort

end SoftLimits

/-- The rule of a mode, with the limits that it needs in force. -/
inductive Rule : Mode → Type where
  | position (hard : HardLimits) (soft : SoftLimits) (hasVelocity : hard.hasVelocity) :
      Rule .position
  | effort (hard : HardLimits) (soft : SoftLimits) (hasVelocity : hard.hasVelocity)
      (hasEffort : hard.hasEffort) : Rule .effort
  | velocity (hard : HardLimits) (hasVelocity : hard.hasVelocity) : Rule .velocity

namespace Rule

variable {mode : Mode}

def ofPosition (name : String) (hard : HardLimits) (soft : SoftLimits) :
    Except ConfigFault (Rule .position) :=
  if h : hard.hasVelocity then .ok (.position hard soft h)
  else .error (.missingVelocityLimits (.cut name))

/-- Misses velocity limits before effort limits. -/
def ofEffort (name : String) (hard : HardLimits) (soft : SoftLimits) :
    Except ConfigFault (Rule .effort) :=
  if h : hard.hasVelocity then
    if h' : hard.hasEffort then .ok (.effort hard soft h h')
    else .error (.missingEffortLimits (.cut name))
  else .error (.missingVelocityLimits (.cut name))

def ofVelocity (name : String) (hard : HardLimits) : Except ConfigFault (Rule .velocity) :=
  if h : hard.hasVelocity then .ok (.velocity hard h)
  else .error (.missingVelocityLimits (.cut name))

/-- Builds the rule of a mode.  A velocity rule has no use for the soft limits. -/
def ofLimits (mode : Mode) (name : String) (hard : HardLimits) (soft : SoftLimits) :
    Except ConfigFault (Rule mode) :=
  match mode with
  | .position => ofPosition name hard soft
  | .effort => ofEffort name hard soft
  | .velocity => ofVelocity name hard

def hard : Rule mode → HardLimits
  | .position hard .. => hard
  | .effort hard .. => hard
  | .velocity hard _ => hard

def soft? : Rule mode → Option SoftLimits
  | .position _ soft _ => some soft
  | .effort _ soft .. => some soft
  | .velocity .. => none

/-- The commands allowed at a tick.  Only a position rule looks at the period. -/
def band (rule : Rule mode) (period : Period) (joint : JointState) : Band :=
  match rule with
  | .position hard soft _ => soft.reach hard period.inSeconds joint.position
  | .effort hard soft .. => soft.efforts hard joint.position joint.velocity
  | .velocity hard _ => .within hard.maxVelocity

def command (rule : Rule mode) (period : Period) (joint : JointState) : Float :=
  (rule.band period joint).saturate joint.command

end Rule

end JointGuard
