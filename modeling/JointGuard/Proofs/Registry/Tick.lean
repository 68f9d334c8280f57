import JointGuard.Proofs.Registry.Listing
import Mathlib.Data.List.Nodup

/-! # A tick of a registry

A tick goes through the handles one after the other, and each of them rewrites the command of its
joint.  What a joint ends with is therefore up to the handles that view it alone (`get_enforce`).
If no two handles view one joint, each joint gets the command of its own handle, and the order of
registration does not matter (`enforce_fanOut`). -/

namespace JointGuard

variable {mode : Mode} {n : Nat}

namespace Handle

/-- What a tick through the handle does to the joint that it views. -/
def act (handle : Handle mode n) (period : Period) (joint : JointState) : JointState :=
  joint.withCommand (handle.rule.command period joint)

theorem get_enforce (handle : Handle mode n) (period : Period) (joints : Joints n) (j : Fin n) :
    (handle.enforce period joints).get j =
      if handle.joint = j then handle.act period (joints.get j) else joints.get j := by
  change (handle.enforce period joints)[j.val] =
    if handle.joint = j then handle.act period joints[j.val] else joints[j.val]
  rw [getElem_enforce]
  simp only [act, Fin.ext_iff]

end Handle

@[simp] theorem JointState.withCommand_withCommand (joint : JointState) (first second : Float) :
    (joint.withCommand first).withCommand second = joint.withCommand second := rfl

/-- Acting on a joint changes its command alone. -/
theorem exists_foldl_act (handles : List (Handle mode n)) (period : Period) (joint : JointState) :
    ∃ command, handles.foldl (fun joint handle => handle.act period joint) joint =
      joint.withCommand command := by
  induction handles generalizing joint with
  | nil => exact ⟨joint.command, rfl⟩
  | cons handle handles ih =>
    obtain ⟨command, h⟩ := ih (handle.act period joint)
    exact ⟨command, by rw [List.foldl_cons, h, Handle.act, JointState.withCommand_withCommand]⟩

namespace Registry

/-- The handles that view a joint, in the order of their registration. -/
def viewers (registry : Registry mode n) (j : Fin n) : List (Handle mode n) :=
  registry.toList.filter (·.joint = j)

theorem enforce_eq (registry : Registry mode n) (period : Period) (joints : Joints n) :
    registry.enforce period joints =
      registry.toList.foldl (fun joints handle => handle.enforce period joints) joints := by
  rw [enforce, toList, List.foldl_map]

/-- Handles of other joints do not interfere. -/
theorem get_foldl_enforce (handles : List (Handle mode n)) (period : Period) (joints : Joints n)
    (j : Fin n) :
    (handles.foldl (fun joints handle => handle.enforce period joints) joints).get j =
      (handles.filter (·.joint = j)).foldl (fun joint handle => handle.act period joint)
        (joints.get j) := by
  induction handles generalizing joints with
  | nil => rfl
  | cons handle handles ih =>
    rw [List.foldl_cons, ih, Handle.get_enforce, List.filter_cons]
    by_cases h : handle.joint = j <;> simp [h]

theorem get_enforce (registry : Registry mode n) (period : Period) (joints : Joints n)
    (j : Fin n) : (registry.enforce period joints).get j =
      (registry.viewers j).foldl (fun joint handle => handle.act period joint)
        (joints.get j) := by
  rw [enforce_eq, get_foldl_enforce, viewers]

theorem get_enforce_of_unviewed {registry : Registry mode n} {j : Fin n}
    (h : ∀ handle ∈ registry.toList, handle.joint ≠ j) (period : Period) (joints : Joints n) :
    (registry.enforce period joints).get j = joints.get j := by
  have hnone : registry.viewers j = [] := by
    rw [viewers, List.filter_eq_nil_iff]
    simpa using h
  rw [get_enforce, hnone, List.foldl_nil]

/-- A tick rewrites the command of a joint and nothing else of it. -/
theorem get_enforce_eq_withCommand (registry : Registry mode n) (period : Period)
    (joints : Joints n) (j : Fin n) : (registry.enforce period joints).get j =
      (joints.get j).withCommand ((registry.enforce period joints).get j).command := by
  obtain ⟨command, h⟩ := exists_foldl_act (registry.viewers j) period (joints.get j)
  rw [get_enforce, h]
  rfl

/-- Registries of the same handles do the same if they do so to each joint that is viewed. -/
theorem enforce_eq_of_viewed {registry other : Registry mode n}
    (hperm : other.toList.Perm registry.toList) {period : Period} {joints : Joints n}
    (h : ∀ j, (∃ handle ∈ registry.toList, handle.joint = j) →
      (other.enforce period joints).get j = (registry.enforce period joints).get j) :
    other.enforce period joints = registry.enforce period joints := by
  refine Vector.ext fun i hi => ?_
  change (other.enforce period joints).get ⟨i, hi⟩ = (registry.enforce period joints).get ⟨i, hi⟩
  by_cases hviewed : ∃ handle ∈ registry.toList, handle.joint = ⟨i, hi⟩
  · exact h _ hviewed
  · have hunviewed : ∀ handle ∈ registry.toList, handle.joint ≠ ⟨i, hi⟩ :=
      fun handle hmem heq => hviewed ⟨handle, hmem, heq⟩
    rw [get_enforce_of_unviewed hunviewed,
      get_enforce_of_unviewed fun handle hmem => hunviewed handle (hperm.mem_iff.1 hmem)]

/-- If no two handles view one joint, a handle is the only viewer of its joint. -/
theorem viewers_eq_singleton {registry : Registry mode n}
    (hdistinct : (registry.toList.map (·.joint)).Nodup) {handle : Handle mode n}
    (h : handle ∈ registry.toList) : registry.viewers handle.joint = [handle] := by
  obtain ⟨before, after, hlist⟩ := List.append_of_mem h
  rw [hlist, List.map_append, List.map_cons, List.nodup_middle, List.nodup_cons,
    List.mem_append, not_or] at hdistinct
  obtain ⟨⟨hbefore, hafter⟩, -⟩ := hdistinct
  have hnone {others : List (Handle mode n)} (hothers : handle.joint ∉ others.map (·.joint)) :
      others.filter (·.joint = handle.joint) = [] := by
    rw [List.filter_eq_nil_iff]
    intro other hother
    rw [decide_eq_true_iff]
    exact fun heq => hothers (heq ▸ List.mem_map_of_mem hother)
  rw [viewers, hlist, List.filter_append, hnone hbefore, List.nil_append, List.filter_cons,
    if_pos (decide_eq_true rfl), hnone hafter]

theorem get_enforce_of_distinct {registry : Registry mode n}
    (hdistinct : (registry.toList.map (·.joint)).Nodup) {handle : Handle mode n}
    (h : handle ∈ registry.toList) (period : Period) (joints : Joints n) :
    (registry.enforce period joints).get handle.joint =
      handle.act period (joints.get handle.joint) := by
  rw [get_enforce, viewers_eq_singleton hdistinct h, List.foldl_cons, List.foldl_nil]

/-- The same handles in another order do the same. -/
theorem enforce_eq_of_perm {registry other : Registry mode n}
    (hdistinct : (registry.toList.map (·.joint)).Nodup)
    (hperm : other.toList.Perm registry.toList) (period : Period) (joints : Joints n) :
    other.enforce period joints = registry.enforce period joints := by
  have hother : (other.toList.map (·.joint)).Nodup := (hperm.map _).nodup_iff.2 hdistinct
  apply enforce_eq_of_viewed hperm
  rintro _ ⟨handle, hmem, rfl⟩
  rw [get_enforce_of_distinct hdistinct hmem,
    get_enforce_of_distinct hother (hperm.mem_iff.2 hmem)]

end Registry

/-- A tick leaves the registry as it is and of the joints changes the commands of viewed ones alone.
If no two handles view one joint, each joint gets what its own handle's rule makes of its state
before the tick, and the order of registration does not matter. -/
theorem enforce_fanOut (session : Session mode n) (period : Period) :
    let next := session.after (.enforce period)
    let handles := session.registry.toList
    session.step (.enforce period) = .ok next ∧ next.registry = session.registry ∧
      (∀ j, ∃ command, next.joints.get j = (session.joints.get j).withCommand command) ∧
      (∀ j, (∀ handle ∈ handles, handle.joint ≠ j) →
        next.joints.get j = session.joints.get j) ∧
      ((handles.map (·.joint)).Nodup →
        (∀ handle ∈ handles, (next.joints.get handle.joint).command =
          handle.rule.command period (session.joints.get handle.joint)) ∧
        ∀ other : Registry mode n, other.toList.Perm handles →
          other.enforce period session.joints = next.joints) := by
  intro next handles
  have hjoints : next.joints = session.registry.enforce period session.joints := rfl
  refine ⟨rfl, rfl, ?_, ?_, ?_⟩
  · intro j
    rw [hjoints, Registry.get_enforce]
    exact exists_foldl_act _ period _
  · intro j hunviewed
    exact Registry.get_enforce_of_unviewed hunviewed period session.joints
  · intro hdistinct
    refine ⟨fun handle hmem => ?_, fun other hperm => ?_⟩
    · rw [hjoints, Registry.get_enforce_of_distinct hdistinct hmem]
      rfl
    · exact Registry.enforce_eq_of_perm hdistinct hperm period session.joints

def leftWheel : Handle .velocity 2 :=
  ⟨"left", 0, .velocity (HardLimits.unlimited.withVelocity 1.0) rfl⟩

def rightWheel : Handle .velocity 2 :=
  ⟨"right", 1, .velocity (HardLimits.unlimited.withVelocity 2.0) rfl⟩

/-- Both wheels are to turn faster than they may. -/
def wheelSession : Session .velocity 2 :=
  (Session.start .velocity 2 2).run [.register leftWheel, .register rightWheel,
    .update 0 { command := 5.0 }, .update 1 { command := -5.0 }]

def swappedWheels : Registry .velocity 2 :=
  ((Session.start .velocity 2 2).run [.register rightWheel, .register leftWheel]).registry

def millisecond : Period := ⟨0, 1000000, by decide⟩

theorem enforce_fanOut_wheels :
    let next := wheelSession.after (.enforce millisecond)
    (wheelSession.registry.toList.map (·.joint)).Nodup ∧
      swappedWheels.toList.Perm wheelSession.registry.toList ∧
      (next.joints.get 0).command = 1.0 ∧ (next.joints.get 1).command = -2.0 ∧
      swappedWheels.enforce millisecond wheelSession.joints = next.joints := by
  intro next
  have hlist : wheelSession.registry.toList = [leftWheel, rightWheel] := rfl
  have hswapped : swappedWheels.toList = [rightWheel, leftWheel] := rfl
  have hdistinct : (wheelSession.registry.toList.map (·.joint)).Nodup := by
    rw [hlist]
    decide
  have hperm : swappedWheels.toList.Perm wheelSession.registry.toList := by
    rw [hlist, hswapped]
    exact .swap _ _ _
  obtain ⟨-, -, -, -, hfanOut⟩ := enforce_fanOut wheelSession millisecond
  obtain ⟨hown, horder⟩ := hfanOut hdistinct
  have hleft := hown leftWheel (by simp [hlist])
  have hright := hown rightWheel (by simp [hlist])
  refine ⟨hdistinct, hperm, hleft.trans ?_, hright.trans ?_, horder swappedWheels hperm⟩ <;>
    decide +kernel

end JointGuard
