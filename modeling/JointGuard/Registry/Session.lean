import JointGuard.Config.Basic
import JointGuard.Registry.Basic

/-! # Sessions

A session is a registry together with the joints that its handles refer to.  Whatever can happen to
it is a `Step`; a step that fails leaves the session as it was. -/

namespace JointGuard

structure Session (mode : Mode) (n : Nat) where
  registry : Registry mode n
  joints : Joints n

inductive Step (mode : Mode) (n : Nat) where
  | register (handle : Handle mode n)
  | enforce (period : Period)
  | enforceOne (name : String) (period : Period)
  | find (name : String)
  | update (joint : Fin n) (state : JointState)

/-- The rule of a mode for a configured joint: its hard limits, then its soft limits where the mode
has any, then what the rule itself needs. -/
def Config.rule (config : Config) (name : String) : (mode : Mode) → Except ConfigFault (Rule mode)
  | .position => do
    let hard ← config.hardLimits name
    let soft ← config.softLimits name
    Rule.ofPosition name hard soft
  | .effort => do
    let hard ← config.hardLimits name
    let soft ← config.softLimits name
    Rule.ofEffort name hard soft
  | .velocity => do
    let hard ← config.hardLimits name
    Rule.ofVelocity name hard

namespace Session

variable {mode : Mode} {n : Nat}

/-- No handles, and all joints at rest. -/
def start (mode : Mode) (n capacity : Nat) : Session mode n :=
  { registry := .empty capacity, joints := .atRest n }

def step (session : Session mode n) : Step mode n → Except Fault (Session mode n)
  | .register handle => do
    let registry ← (session.registry.register handle).mapError .registration
    return { session with registry }
  | .enforce period =>
    return { session with joints := session.registry.enforce period session.joints }
  | .enforceOne name period => do
    let joints ← (session.registry.enforceOne name period session.joints).mapError .lookup
    return { session with joints }
  | .find name => do
    let _ ← (session.registry.find name).mapError .lookup
    return session
  | .update joint state =>
    return { session with joints := session.joints.update joint fun _ => state }

/-- The session after a step, whether it succeeds or fails. -/
def after (session : Session mode n) (step : Step mode n) : Session mode n :=
  match session.step step with
  | .ok next => next
  | .error _ => session

def run (session : Session mode n) (steps : List (Step mode n)) : Session mode n :=
  steps.foldl after session

/-- Sets up a configured joint: its rule, then its registration. -/
def setUp (session : Session mode n) (config : Config) (name : String) (joint : Fin n) :
    Except Fault (Session mode n) := do
  let rule ← (config.rule name mode).mapError .config
  session.step (.register { name, joint, rule })

/-- Writes the commands that are given and leaves the others. -/
def command (session : Session mode n) (commands : Vector (Option Float) n) : Session mode n :=
  { session with
    joints := session.joints.zipWith
      (fun joint command => (command.map joint.withCommand).getD joint) commands }

/-- One control cycle: commands, enforcement, and then, if the joints follow, motion. -/
def cycle (session : Session mode n) (period : Period) (commands : Vector (Option Float) n)
    (follow : Bool) : Session mode n :=
  let session := session.command commands
  let joints := session.registry.enforce period session.joints
  { session with joints := if follow then joints.map .arrived else joints }

def cycles (session : Session mode n) (count : Nat) (period : Period)
    (commands : Vector (Option Float) n) (follow : Bool) : Session mode n :=
  count.fold (fun _ _ session => session.cycle period commands follow) session

end Session

end JointGuard
