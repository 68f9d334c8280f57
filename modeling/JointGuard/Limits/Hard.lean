/-! # Hard limits of a joint

Each limit is a value with a flag that says whether it is in force.  Flags and values are
independent: a value without its flag is kept and has no effect. -/

namespace JointGuard

structure HardLimits where
  minPosition : Float := 0.0
  maxPosition : Float := 0.0
  maxVelocity : Float := 0.0
  maxAcceleration : Float := 0.0
  maxJerk : Float := 0.0
  maxEffort : Float := 0.0
  hasPosition : Bool := false
  hasVelocity : Bool := false
  hasAcceleration : Bool := false
  hasJerk : Bool := false
  hasEffort : Bool := false
  /-- The joint turns without end, so that its angle wraps around. -/
  wraps : Bool := false
  deriving BEq

namespace HardLimits

/-- No limit is in force. -/
def unlimited : HardLimits := {}

def withPosition (limits : HardLimits) (min max : Float) : HardLimits :=
  { limits with minPosition := min, maxPosition := max, hasPosition := true }

def withVelocity (limits : HardLimits) (max : Float) : HardLimits :=
  { limits with maxVelocity := max, hasVelocity := true }

def withAcceleration (limits : HardLimits) (max : Float) : HardLimits :=
  { limits with maxAcceleration := max, hasAcceleration := true }

def withJerk (limits : HardLimits) (max : Float) : HardLimits :=
  { limits with maxJerk := max, hasJerk := true }

def withEffort (limits : HardLimits) (max : Float) : HardLimits :=
  { limits with maxEffort := max, hasEffort := true }

def wrapping (limits : HardLimits) : HardLimits := { limits with wraps := true }

/-- A position is allowed if it lies in the band, ends included; NaN never does. -/
def contains (limits : HardLimits) (position : Float) : Bool :=
  !limits.hasPosition || (limits.minPosition ≤ position && position ≤ limits.maxPosition)

end HardLimits

end JointGuard
