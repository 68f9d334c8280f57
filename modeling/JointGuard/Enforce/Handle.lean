import JointGuard.Enforce.Rule

/-! # Handles

A handle binds a rule to one joint of a machine under a name.  A tick through it rewrites the
command of that joint and nothing else. -/

namespace JointGuard

structure Handle (mode : Mode) (n : Nat) where
  name : String
  joint : Fin n
  rule : Rule mode

/-- What a handle shows of its joint. -/
structure View where
  name : String
  position : Float
  velocity : Float
  command : Float

namespace Handle

variable {mode : Mode} {n : Nat}

def view (handle : Handle mode n) (joints : Joints n) : View :=
  let joint := joints[handle.joint]
  { name := handle.name
    position := joint.position
    velocity := joint.velocity
    command := joint.command }

/-- One tick. -/
def enforce (handle : Handle mode n) (period : Period) (joints : Joints n) : Joints n :=
  joints.update handle.joint fun joint => joint.withCommand (handle.rule.command period joint)

theorem getElem_enforce (handle : Handle mode n) (period : Period) (joints : Joints n) (j : Nat)
    (hj : j < n) :
    (handle.enforce period joints)[j] =
      if handle.joint.val = j then joints[j].withCommand (handle.rule.command period joints[j])
      else joints[j] := by
  simp [enforce]

end Handle

end JointGuard
