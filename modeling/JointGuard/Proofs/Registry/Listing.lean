import JointGuard.Proofs.Joint.Rosters
import JointGuard.Registry.Session

/-! # What a registry holds

A registry is the list of its handles in the order of registration (`toList`).  Its names are the
names of these handles, and every way of looking a name up finds the handle of that name in the
list, or nothing if there is none. -/

namespace JointGuard
open Text

namespace Registry

variable {mode : Mode} {n : Nat}

/-- The handles in the order of their registration. -/
def toList (registry : Registry mode n) : List (Handle mode n) :=
  registry.handles.entries.map (·.2)

/-- The handles under their names, in the order of their registration. -/
def listing (registry : Registry mode n) : List (String × Handle mode n) :=
  registry.handles.entries.map fun entry => (entry.1.text, entry.2)

variable {registry : Registry mode n} {name : String} {handle : Handle mode n}

theorem listing_eq (registry : Registry mode n) :
    registry.listing = registry.toList.map fun handle => (handle.name, handle) := by
  rw [listing, toList, List.map_map]
  refine List.map_congr_left fun entry hentry => ?_
  rw [registry.named entry hentry]
  rfl

theorem names_eq (registry : Registry mode n) :
    registry.names = registry.toList.map (·.name) := by
  rw [names, Roster.names, toList, List.map_map]
  exact List.map_congr_left registry.named

theorem length_toList (registry : Registry mode n) : registry.toList.length = registry.size := by
  rw [toList, List.length_map, size, Roster.size]

theorem size_le_capacity (registry : Registry mode n) : registry.size ≤ registry.capacity :=
  registry.handles.fits

theorem mem_names_iff : name ∈ registry.names ↔ ∃ handle ∈ registry.toList, handle.name = name := by
  rw [names_eq, List.mem_map]

theorem find?_eq_some_iff :
    registry.find? name = some handle ↔ handle ∈ registry.toList ∧ handle.name = name := by
  rw [find?, Roster.find?_eq_some_iff, toList]
  constructor
  · rintro ⟨joint, rfl, hmem⟩
    exact ⟨List.mem_map.2 ⟨_, hmem, rfl⟩, (registry.named _ hmem).symm⟩
  · rintro ⟨hmem, rfl⟩
    obtain ⟨entry, hentry, rfl⟩ := List.mem_map.1 hmem
    exact ⟨entry.1, registry.named entry hentry, hentry⟩

theorem find?_eq_none_iff : registry.find? name = none ↔ name ∉ registry.names := by
  rw [Option.eq_none_iff_forall_ne_some, mem_names_iff, not_exists]
  exact forall_congr' fun handle => not_congr find?_eq_some_iff

theorem contains_iff : registry.contains name ↔ name ∈ registry.names := by
  rw [contains, Option.isSome_iff_ne_none, Ne, find?_eq_none_iff, Classical.not_not]

theorem find_eq_ok_iff :
    registry.find name = .ok handle ↔ handle ∈ registry.toList ∧ handle.name = name := by
  rw [← find?_eq_some_iff, find]
  cases registry.find? name <;> simp

theorem find_of_notMem (h : name ∉ registry.names) :
    registry.find name = .error (.jointNotFound (.cut name)) := by
  rw [find, find?_eq_none_iff.2 h]

theorem exists_find_iff : (∃ handle, registry.find name = .ok handle) ↔ name ∈ registry.names := by
  rw [mem_names_iff]
  exact exists_congr fun handle => find_eq_ok_iff

theorem exists_enforceOne_iff (period : Period) (joints : Joints n) :
    (∃ next, registry.enforceOne name period joints = .ok next) ↔ name ∈ registry.names := by
  rw [← exists_find_iff, enforceOne]
  cases registry.find name <;> simp [Except.map]

end Registry

end JointGuard
