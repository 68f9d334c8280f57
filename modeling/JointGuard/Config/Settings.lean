import JointGuard.Fault
import JointGuard.Limits.Soft

/-! # Settings of one joint

What a limits file says about a joint, before it is checked.  `hard` derives the limits in force;
`faults` lists everything wrong with the settings, the gravest first. -/

namespace JointGuard

structure JointSettings where
  minPosition : Option Float := none
  maxPosition : Option Float := none
  maxVelocity : Option Float := none
  maxAcceleration : Option Float := none
  maxJerk : Option Float := none
  maxEffort : Option Float := none
  wraps : Bool := false
  soft : Option SoftLimits := none

namespace JointSettings

/-- Only one end of the position band is given. -/
def isPartial (settings : JointSettings) : Bool :=
  settings.minPosition.isSome != settings.maxPosition.isSome

def magnitude (settings : JointSettings) : Magnitude → Option Float
  | .velocity => settings.maxVelocity
  | .acceleration => settings.maxAcceleration
  | .jerk => settings.maxJerk
  | .effort => settings.maxEffort

/-- The position band, if both ends are given. -/
def band? (settings : JointSettings) : Option (Float × Float) :=
  match settings.minPosition, settings.maxPosition with
  | some min, some max => some (min, max)
  | _, _ => none

/-- The hard limits in force: each one that is given, the position limits only as a pair. -/
def hard (settings : JointSettings) : HardLimits where
  minPosition := (settings.band?.map (·.1)).getD 0.0
  maxPosition := (settings.band?.map (·.2)).getD 0.0
  maxVelocity := settings.maxVelocity.getD 0.0
  maxAcceleration := settings.maxAcceleration.getD 0.0
  maxJerk := settings.maxJerk.getD 0.0
  maxEffort := settings.maxEffort.getD 0.0
  hasPosition := settings.band?.isSome
  hasVelocity := settings.maxVelocity.isSome
  hasAcceleration := settings.maxAcceleration.isSome
  hasJerk := settings.maxJerk.isSome
  hasEffort := settings.maxEffort.isSome
  wraps := settings.wraps

/-- A half-given position band; a band on a joint that wraps around; a band without room. -/
def positionFaults (settings : JointSettings) (joint : JointName) : List ConfigFault :=
  match settings.minPosition, settings.maxPosition with
  | none, none => []
  | some min, some max =>
    (if settings.wraps then [.wraparoundWithPositionLimits joint] else []) ++
      (if min < max then [] else [.invalidPositionLimits joint min max])
  | _, _ => [.incompletePositionLimits joint]

/-- A limit of magnitude that is not above zero. -/
def magnitudeFaults (settings : JointSettings) : List ConfigFault :=
  Magnitude.all.filterMap fun limit =>
    match settings.magnitude limit with
    | none => none
    | some value => if 0.0 < value then none else some (.invalidLimit limit value)

def softFaults (settings : JointSettings) (joint : JointName) : List ConfigFault :=
  match settings.soft with
  | none => []
  | some soft => if soft.isValid then [] else [.invalidSoftLimits joint]

def faults (settings : JointSettings) (joint : JointName) : List ConfigFault :=
  settings.positionFaults joint ++ settings.magnitudeFaults ++ settings.softFaults joint

end JointSettings

end JointGuard
