import JointGuard.Proofs.Registry.Tick

/-! # Ticking by name

A tick of the registry does what a tick through each of its names does, one after the other in the
order of registration (`perform_each_name`).  Every name finds the handle that was registered under
it, whatever the earlier ticks did to the joints. -/

namespace JointGuard

variable {mode : Mode} {n : Nat}

namespace Registry

theorem enforceOne_name {registry : Registry mode n} {handle : Handle mode n}
    (h : handle ∈ registry.toList) (period : Period) (joints : Joints n) :
    registry.enforceOne handle.name period joints = .ok (handle.enforce period joints) := by
  have hfind : registry.find handle.name = .ok handle := find_eq_ok_iff.2 ⟨h, rfl⟩
  rw [enforceOne, hfind]
  rfl

end Registry

namespace Session

/-- Takes the steps one after the other, up to the first that fails. -/
def perform (session : Session mode n) (steps : List (Step mode n)) :
    Except Fault (Session mode n) :=
  steps.foldlM step session

theorem step_enforceOne {session : Session mode n} {handle : Handle mode n}
    (h : handle ∈ session.registry.toList) (period : Period) :
    session.step (.enforceOne handle.name period) =
      .ok { session with joints := handle.enforce period session.joints } := by
  rw [step, Registry.enforceOne_name h]
  rfl

/-- The joints change from tick to tick and the registry does not, so a name finds in the end what
it would have found at the start. -/
theorem perform_enforceOne (session : Session mode n) {handles : List (Handle mode n)}
    (h : ∀ handle ∈ handles, handle ∈ session.registry.toList) (period : Period) :
    session.perform (handles.map fun handle => .enforceOne handle.name period) =
      .ok { session with
        joints := handles.foldl (fun joints handle => handle.enforce period joints)
          session.joints } := by
  induction handles generalizing session with
  | nil => rfl
  | cons handle handles ih =>
    obtain ⟨hhead, htail⟩ := List.forall_mem_cons.1 h
    rw [List.map_cons, perform, List.foldlM_cons, step_enforceOne hhead]
    exact ih { session with joints := handle.enforce period session.joints } htail

end Session

/-- Ticking through the names of a registry, each looked up when its turn comes, never fails and
leaves the registry and every joint as one tick of the whole registry does.  After the first `k`
names the first `k` handles have ticked. -/
theorem perform_each_name (session : Session mode n) (period : Period) :
    let handles := session.registry.toList
    let ticks : List (Step mode n) := session.registry.names.map (.enforceOne · period)
    session.perform ticks = .ok (session.after (.enforce period)) ∧
      ∀ k, session.perform (ticks.take k) = .ok { session with
        joints := (handles.take k).foldl (fun joints handle => handle.enforce period joints)
          session.joints } := by
  intro handles ticks
  have hticks : ticks = handles.map fun handle => .enforceOne handle.name period := by
    change session.registry.names.map (Step.enforceOne · period) = _
    rw [session.registry.names_eq, List.map_map]
    rfl
  constructor
  · have hafter : session.after (.enforce period) = { session with
        joints := handles.foldl (fun joints handle => handle.enforce period joints)
          session.joints } := by
      rw [← session.registry.enforce_eq]
      rfl
    rw [hticks, session.perform_enforceOne (fun _ => id), hafter]
  · intro k
    rw [hticks, ← List.map_take]
    exact session.perform_enforceOne (fun _ => List.mem_of_mem_take) period

end JointGuard
