/-! # Joints as a controller sees them

A joint has measured position, velocity and effort, and a pending command.  The joints of a machine
are a vector, so that several handles can refer to one joint by its index. -/

namespace JointGuard

structure JointState where
  position : Float := 0.0
  velocity : Float := 0.0
  effort : Float := 0.0
  command : Float := 0.0
  deriving DecidableEq

namespace JointState

def atRest : JointState := {}

def withCommand (joint : JointState) (command : Float) : JointState :=
  { joint with command }

/-- The joint has moved to where it was commanded. -/
def arrived (joint : JointState) : JointState :=
  { joint with position := joint.command }

end JointState

abbrev Joints (n : Nat) := Vector JointState n

namespace Joints

variable {n : Nat}

def atRest (n : Nat) : Joints n := Vector.replicate n .atRest

def update (joints : Joints n) (i : Fin n) (f : JointState → JointState) : Joints n :=
  joints.set i (f joints[i])

@[simp] theorem getElem_update (joints : Joints n) (i : Fin n) (f : JointState → JointState)
    (j : Nat) (hj : j < n) :
    (joints.update i f)[j] = if i.val = j then f joints[j] else joints[j] := by
  unfold update
  rw [Vector.getElem_set]
  split
  · rename_i h; subst h; rfl
  · rfl

end Joints

end JointGuard
