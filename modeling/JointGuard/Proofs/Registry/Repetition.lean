import JointGuard.Proofs.Enforce.Clamp
import JointGuard.Proofs.Registry.Tick

/-! # Ticking twice

The bands of the handles do not depend on the pending command, so a tick saturates the command of a
joint into one band after the other, which is one clamp (`value_command_enforce`).  A second tick
with nothing changed in between finds the same bands, and changes no command
(`enforce_enforce_same`). -/

namespace JointGuard
open Floating

variable {mode : Mode} {n : Nat}

@[simp] theorem Rule.band_withCommand (rule : Rule mode) (period : Period) (joint : JointState)
    (command : Float) : rule.band period (joint.withCommand command) = rule.band period joint := by
  cases rule <;> rfl

/-- The bands that the handles find for a joint. -/
def bandsOf (handles : List (Handle mode n)) (period : Period) (joint : JointState) : List Band :=
  handles.map fun handle => handle.rule.band period joint

theorem bandsOf_withCommand (handles : List (Handle mode n)) (period : Period)
    (joint : JointState) (command : Float) :
    bandsOf handles period (joint.withCommand command) = bandsOf handles period joint := by
  simp [bandsOf]

theorem command_foldl_act (handles : List (Handle mode n)) (period : Period)
    (joint : JointState) :
    (handles.foldl (fun joint handle => handle.act period joint) joint).command =
      Band.saturateAll (bandsOf handles period joint) joint.command := by
  induction handles generalizing joint with
  | nil => rfl
  | cons handle handles ih =>
    rw [List.foldl_cons, ih, Handle.act, bandsOf_withCommand]
    rfl

namespace Registry

/-- The bands that a tick saturates the command of a joint into, in this order. -/
def bands (registry : Registry mode n) (period : Period) (joints : Joints n) (j : Fin n) :
    List Band :=
  bandsOf (registry.viewers j) period (joints.get j)

theorem command_enforce (registry : Registry mode n) (period : Period) (joints : Joints n)
    (j : Fin n) : ((registry.enforce period joints).get j).command =
      Band.saturateAll (registry.bands period joints j) (joints.get j).command := by
  rw [get_enforce, command_foldl_act, bands]

/-- However many handles view a joint, a tick clamps its command once. -/
theorem value_command_enforce (registry : Registry mode n) (period : Period) (joints : Joints n)
    (j : Fin n) (h : ¬(joints.get j).command.isNaN) :
    value ((registry.enforce period joints).get j).command =
      (Band.composed (registry.bands period joints j)).apply (value (joints.get j).command) := by
  rw [command_enforce, Band.value_saturateAll _ h]

theorem bands_enforce (registry : Registry mode n) (period : Period) (joints : Joints n)
    (j : Fin n) : registry.bands period (registry.enforce period joints) j =
      registry.bands period joints j := by
  obtain ⟨command, h⟩ := exists_foldl_act (registry.viewers j) period (joints.get j)
  rw [bands, get_enforce, h, bandsOf_withCommand, bands]

end Registry

/-- A second tick with nothing changed in between leaves every command as it is, and the rest of
every joint with it, whatever the handles and their limits are. -/
theorem enforce_enforce_same (registry : Registry mode n) (period : Period) (joints : Joints n) :
    let once := registry.enforce period joints
    let twice := registry.enforce period once
    ∀ j, Same (twice.get j).command (once.get j).command ∧
      ∃ command, twice.get j = (once.get j).withCommand command := by
  intro once twice j
  constructor
  · have hbands : registry.bands period once j = registry.bands period joints j :=
      registry.bands_enforce period joints j
    have htwice : (twice.get j).command =
        Band.saturateAll (registry.bands period once j) (once.get j).command :=
      registry.command_enforce period once j
    rw [htwice, hbands, registry.command_enforce period joints j]
    exact Band.same_saturateAll _ _
  · rw [registry.get_enforce period once j]
    exact exists_foldl_act _ period _

end JointGuard
