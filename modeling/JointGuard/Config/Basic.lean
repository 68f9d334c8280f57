import JointGuard.Config.Settings
import JointGuard.Joint.Roster

/-! # Configurations

The settings of up to 32 joints, in the order in which the joints were first named.  A
configuration is accepted if no joint has a fault; otherwise the first fault of the first faulty
joint is reported. -/

namespace JointGuard
open Text

def Config.maxJoints : Nat := 32

structure Config where
  joints : Roster JointSettings Config.maxJoints := .empty

namespace Config

def empty : Config := {}

def names (config : Config) : List String := config.joints.names

/-- Sets the settings of a joint.  A known joint keeps its place; a new one comes last, if there is
room for it. -/
def insert? (config : Config) (joint : JointName) (settings : JointSettings) : Option Config :=
  if isNew : joint ∉ config.joints.joints then
    if hasRoom : config.joints.size < maxJoints then
      some ⟨config.joints.push joint settings isNew hasRoom⟩
    else none
  else some ⟨config.joints.replace joint settings⟩

def settings? (config : Config) (name : String) : Option JointSettings :=
  config.joints.find? name

def settings (config : Config) (name : String) : Except ConfigFault JointSettings :=
  match config.settings? name with
  | some settings => .ok settings
  | none => .error (.jointNotFound (.cut name))

def hardLimits (config : Config) (name : String) : Except ConfigFault HardLimits :=
  (config.settings name).map JointSettings.hard

def softLimits (config : Config) (name : String) : Except ConfigFault SoftLimits := do
  match (← config.settings name).soft with
  | some soft => .ok soft
  | none => .error (.missingSoftLimits (.cut name))

def faults (config : Config) : List ConfigFault :=
  config.joints.entries.flatMap fun (joint, settings) => settings.faults joint

/-- Reports the first fault. -/
def check (config : Config) : Except ConfigFault Unit :=
  match config.faults with
  | [] => .ok ()
  | fault :: _ => .error fault

@[simp] theorem check_eq_ok_iff {config : Config} : config.check = .ok () ↔ config.faults = [] := by
  unfold check
  split <;> simp_all

theorem check_eq_error_iff {config : Config} {fault : ConfigFault} :
    config.check = .error fault ↔ config.faults.head? = some fault := by
  unfold check
  split <;> simp_all

end Config

end JointGuard
