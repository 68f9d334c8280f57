import JointGuard.Decimal.Positional
import JointGuard.Text.Bounded

/-! # Faults and their wording

Everything that setting up limits can report, by stage: reading and checking a configuration,
looking a joint up, registering a handle.  A fault carries its cause as data; the wording is fixed
by the `message` functions alone.  Joint names are carried in at most 32 bytes and foreign messages
in at most 128. -/

namespace JointGuard
open Text Decimal

abbrev JointName := BoundedText 32

abbrev Notice := BoundedText 128

/-- The limits of magnitude, in the order in which they are checked. -/
inductive Magnitude where
  | velocity
  | acceleration
  | jerk
  | effort
  deriving DecidableEq

def Magnitude.key : Magnitude → String
  | .velocity => "max_velocity"
  | .acceleration => "max_acceleration"
  | .jerk => "max_jerk"
  | .effort => "max_effort"

def Magnitude.all : List Magnitude := [.velocity, .acceleration, .jerk, .effort]

inductive ConfigFault where
  | missingVelocityLimits (joint : JointName)
  | missingEffortLimits (joint : JointName)
  | missingSoftLimits (joint : JointName)
  | jointNotFound (joint : JointName)
  | incompletePositionLimits (joint : JointName)
  | invalidPositionLimits (joint : JointName) (min max : Float)
  | invalidLimit (limit : Magnitude) (value : Float)
  | wraparoundWithPositionLimits (joint : JointName)
  | invalidSoftLimits (joint : JointName)
  | unreadable (notice : Notice)
  | inaccessible (notice : Notice)
  deriving DecidableEq

inductive LookupFault where
  | jointNotFound (joint : JointName)
  deriving DecidableEq

inductive RegistrationFault where
  | duplicateJoint (joint : JointName)
  | nameTooLong
  | registryFull (capacity : Nat)
  deriving DecidableEq

inductive Fault where
  | config (fault : ConfigFault)
  | lookup (fault : LookupFault)
  | registration (fault : RegistrationFault)
  deriving DecidableEq

/-- Numbers in messages: a whole number has no point, and the special values are spelled out. -/
def Fault.numbers : Layout where
  nan := "NaN"
  infinity := "inf"
  wholeEnding := ""

def ConfigFault.message : ConfigFault → String
  | .missingVelocityLimits joint =>
    "Cannot enforce limits for joint '" ++ joint.text ++
      "'. It has no velocity limits specification"
  | .missingEffortLimits joint =>
    "Cannot enforce limits for joint '" ++ joint.text ++ "'. It has no effort limits specification"
  | .missingSoftLimits joint => "Joint '" ++ joint.text ++ "' has no soft limits specification"
  | .jointNotFound joint => "Joint '" ++ joint.text ++ "' not found"
  | .incompletePositionLimits joint =>
    "Joint '" ++ joint.text ++ "' must specify both min_position and max_position, or neither"
  | .invalidPositionLimits joint min max =>
    "Invalid position limits for joint '" ++ joint.text ++ "': min (" ++ Fault.numbers.text min ++
      ") must be < max (" ++ Fault.numbers.text max ++ ")"
  | .invalidLimit limit value =>
    "Invalid " ++ limit.key ++ ": " ++ Fault.numbers.text value ++ ". Must be > 0"
  | .wraparoundWithPositionLimits joint =>
    "Joint '" ++ joint.text ++ "' wraps around and cannot have position limits"
  | .invalidSoftLimits joint =>
    "Invalid soft limits for joint '" ++ joint.text ++
      "': min must be <= max and gains must be >= 0"
  | .unreadable notice => "Parse error: " ++ notice.text
  | .inaccessible notice => "I/O error: " ++ notice.text

def LookupFault.message : LookupFault → String
  | .jointNotFound joint => "No limits handle registered for joint '" ++ joint.text ++ "'"

def RegistrationFault.message : RegistrationFault → String
  | .duplicateJoint joint => "Joint '" ++ joint.text ++ "' is already registered"
  | .nameTooLong => "Joint name too long (max 32 bytes)"
  | .registryFull capacity =>
    "Registry full (capacity " ++ String.ofList (Nat.toDigits 10 capacity) ++ ")"

namespace Fault

/-- The message without the name of its stage. -/
def detail : Fault → String
  | .config fault => fault.message
  | .lookup fault => fault.message
  | .registration fault => fault.message

def stage : Fault → String
  | .config _ => "Configuration error: "
  | .lookup _ => "Lookup error: "
  | .registration _ => "Registration error: "

def message (fault : Fault) : String := fault.stage ++ fault.detail

end Fault

end JointGuard
