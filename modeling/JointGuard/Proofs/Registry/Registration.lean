import JointGuard.Proofs.Registry.Listing

/-! # Registration over a run

A handle is refused for its name before it is refused for want of room.  From an empty registry,
whatever steps are taken, the registry lists exactly the handles that were registered, as they were
registered and in that order, and every lookup agrees with the list (`run_lists_accepted`). -/

namespace JointGuard
open Text

namespace Registry

variable {mode : Mode} {n : Nat}

/-- Everything that a registration can come to, each outcome with its condition. -/
theorem register_cases (registry : Registry mode n) (handle : Handle mode n) :
    32 < handle.name.utf8ByteSize ∧ registry.register handle = .error .nameTooLong ∨
    handle.name.utf8ByteSize ≤ 32 ∧
      (handle.name ∈ registry.names ∧
          registry.register handle = .error (.duplicateJoint (.cut handle.name)) ∨
        handle.name ∉ registry.names ∧
          (registry.size = registry.capacity ∧
              registry.register handle = .error (.registryFull registry.capacity) ∨
            registry.size < registry.capacity ∧ ∃ next, registry.register handle = .ok next ∧
              next.capacity = registry.capacity ∧
              next.toList = registry.toList ++ [handle])) := by
  rw [register]
  split
  next hnone => exact .inl ⟨BoundedText.ofString?_eq_none_iff.1 hnone, rfl⟩
  next joint hjoint =>
    have hname : joint.text = handle.name := BoundedText.ofString?_eq_some_iff.1 hjoint
    have hmem : handle.name ∈ registry.names ↔ joint ∈ registry.handles.joints :=
      hname ▸ Roster.text_mem_names_iff
    have hcut : BoundedText.cut handle.name = joint := hname ▸ BoundedText.cut_text joint
    refine .inr ⟨hname ▸ joint.fits, ?_⟩
    rw [hmem]
    split
    next isOld => exact .inl ⟨isOld, by rw [hcut]⟩
    next isNew =>
      refine .inr ⟨isNew, ?_⟩
      split
      next hasRoom => exact .inr ⟨hasRoom, _, rfl, rfl, by simp [toList, Roster.push]⟩
      next isFull =>
        exact .inl ⟨Nat.le_antisymm registry.size_le_capacity (Nat.le_of_not_lt isFull), rfl⟩

/-- The outcome of a registration, by the first of three things that are wrong. -/
structure Registers (registry : Registry mode n) (handle : Handle mode n) : Prop where
  tooLong : registry.register handle = .error .nameTooLong ↔ 32 < handle.name.utf8ByteSize
  duplicate : ∀ joint : JointName, registry.register handle = .error (.duplicateJoint joint) ↔
    joint.text = handle.name ∧ handle.name ∈ registry.names
  full : ∀ room, registry.register handle = .error (.registryFull room) ↔
    room = registry.capacity ∧ handle.name.utf8ByteSize ≤ 32 ∧ handle.name ∉ registry.names ∧
      registry.size = registry.capacity
  registered : (∃ next, registry.register handle = .ok next) ↔
    handle.name.utf8ByteSize ≤ 32 ∧ handle.name ∉ registry.names ∧
      registry.size < registry.capacity
  appended : ∀ next, registry.register handle = .ok next →
    next.capacity = registry.capacity ∧ next.toList = registry.toList ++ [handle]

theorem registers (registry : Registry mode n) (handle : Handle mode n) :
    registry.Registers handle := by
  have hold : handle.name ∈ registry.names → handle.name.utf8ByteSize ≤ 32 :=
    registry.handles.utf8ByteSize_le_of_mem_names
  -- the outcomes exclude each other, so in each case its own condition decides every clause
  rcases register_cases registry handle with
    ⟨hlong, h⟩ | ⟨hfits, ⟨hmem, h⟩ | ⟨hnew, ⟨hfull, h⟩ | ⟨hroom, next, h, hcapacity, hlist⟩⟩⟩
  · constructor <;> simp only [h] <;> grind
  · have hcut : (.cut handle.name : JointName).text = handle.name :=
      BoundedText.text_cut_of_le hfits
    constructor <;> simp only [h] <;> grind [BoundedText.text_injective]
  · constructor <;> simp only [h] <;> grind
  · constructor <;> simp only [h] <;> grind

end Registry

namespace Session

variable {mode : Mode} {n : Nat}

/-- The handle that a step adds to the registry, if it adds one. -/
def admitted (session : Session mode n) : Step mode n → List (Handle mode n)
  | .register handle => if (session.registry.register handle).isOk then [handle] else []
  | _ => []

/-- The handles that a run registers, in the order in which it does. -/
def accepted (session : Session mode n) : List (Step mode n) → List (Handle mode n)
  | [] => []
  | step :: steps => session.admitted step ++ (session.after step).accepted steps

theorem registry_after (session : Session mode n) (step : Step mode n) :
    (session.after step).registry.capacity = session.registry.capacity ∧
      (session.after step).registry.toList =
        session.registry.toList ++ session.admitted step := by
  cases step with
  | register handle =>
    rw [after, admitted, Session.step]
    cases h : session.registry.register handle with
    | error fault => exact ⟨rfl, (List.append_nil _).symm⟩
    | ok next => exact (session.registry.registers handle).appended next h
  | enforce period => exact ⟨rfl, (List.append_nil _).symm⟩
  | enforceOne name period =>
    rw [after, Session.step]
    cases session.registry.enforceOne name period session.joints <;>
      exact ⟨rfl, (List.append_nil _).symm⟩
  | find name =>
    rw [after, Session.step]
    cases session.registry.find name <;> exact ⟨rfl, (List.append_nil _).symm⟩
  | update joint state => exact ⟨rfl, (List.append_nil _).symm⟩

theorem registry_run (session : Session mode n) (steps : List (Step mode n)) :
    (session.run steps).registry.capacity = session.registry.capacity ∧
      (session.run steps).registry.toList =
        session.registry.toList ++ session.accepted steps := by
  induction steps generalizing session with
  | nil => simp [run, accepted]
  | cons step steps ih =>
    obtain ⟨hcapacity, hlist⟩ := registry_after session step
    obtain ⟨hcapacity', hlist'⟩ := ih (session.after step)
    rw [run, List.foldl_cons, ← run, accepted]
    exact ⟨hcapacity'.trans hcapacity, by rw [hlist', hlist, List.append_assoc]⟩

end Session

/-- The registry holds exactly these handles, in this order, each under its own name. -/
structure Registry.Lists {mode : Mode} {n : Nat} (registry : Registry mode n) (capacity : Nat)
    (handles : List (Handle mode n)) : Prop where
  capacity_eq : registry.capacity = capacity
  listing_eq : registry.listing = handles.map fun handle => (handle.name, handle)
  names_eq : registry.names = handles.map (·.name)
  nodup_names : registry.names.Nodup
  short_names : ∀ name ∈ registry.names, name.utf8ByteSize ≤ 32
  size_eq : registry.size = handles.length
  size_le : registry.size ≤ capacity

/-- Every way of looking a name up succeeds for the names in the list, and for no others. -/
structure Registry.Resolves {mode : Mode} {n : Nat} (registry : Registry mode n) : Prop where
  contains_iff : ∀ name, registry.contains name ↔ name ∈ registry.names
  find_iff : ∀ name, (∃ handle, registry.find name = .ok handle) ↔ name ∈ registry.names
  enforceOne_iff : ∀ name period joints,
    (∃ next, registry.enforceOne name period joints = .ok next) ↔ name ∈ registry.names
  find_mem : ∀ handle ∈ registry.toList, registry.find handle.name = .ok handle
  notFound : ∀ name, name ∉ registry.names →
    registry.find name = .error (.jointNotFound (.cut name))

/-- After any steps from an empty registry: it lists the handles that were registered, the lookups
agree with the list, and a further registration comes to what the list says. -/
theorem run_lists_accepted {mode : Mode} {n : Nat} (capacity : Nat) (steps : List (Step mode n)) :
    let start := Session.start mode n capacity
    let registry := (start.run steps).registry
    registry.Lists capacity (start.accepted steps) ∧ registry.Resolves ∧
      ∀ handle, registry.Registers handle := by
  intro start registry
  obtain ⟨hcapacity, hlist⟩ : registry.capacity = capacity ∧
      registry.toList = start.accepted steps := start.registry_run steps
  refine ⟨?_, ?_, registry.registers⟩
  · constructor
    case capacity_eq => exact hcapacity
    case listing_eq => rw [registry.listing_eq, hlist]
    case names_eq => rw [registry.names_eq, hlist]
    case nodup_names => exact registry.handles.nodup_names
    case short_names => exact fun _ => registry.handles.utf8ByteSize_le_of_mem_names
    case size_eq => rw [← registry.length_toList, hlist]
    case size_le => exact hcapacity ▸ registry.size_le_capacity
  · constructor
    case contains_iff => exact fun _ => Registry.contains_iff
    case find_iff => exact fun _ => Registry.exists_find_iff
    case enforceOne_iff => exact fun _ => Registry.exists_enforceOne_iff
    case find_mem => exact fun _ hmem => Registry.find_eq_ok_iff.2 ⟨hmem, rfl⟩
    case notFound => exact fun _ => Registry.find_of_notMem

end JointGuard
