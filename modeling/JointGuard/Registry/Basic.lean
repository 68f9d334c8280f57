import JointGuard.Enforce.Handle
import JointGuard.Joint.Roster
import JointGuard.Text.Quoted

/-! # Registries

A registry keeps handles of one mode under their names, in the order of registration and up to a
fixed capacity.  Each name has one handle; a name of more than 32 bytes has none. -/

namespace JointGuard
open Text

structure Registry (mode : Mode) (n : Nat) where
  capacity : Nat
  handles : Roster (Handle mode n) capacity := .empty
  named : ∀ entry ∈ handles.entries, entry.1.text = entry.2.name := by simp [Roster.empty]

namespace Registry

variable {mode : Mode} {n : Nat}

def empty (capacity : Nat) : Registry mode n := { capacity }

def size (registry : Registry mode n) : Nat := registry.handles.size

def isEmpty (registry : Registry mode n) : Bool := registry.handles.entries.isEmpty

def names (registry : Registry mode n) : List String := registry.handles.names

def find? (registry : Registry mode n) (name : String) : Option (Handle mode n) :=
  registry.handles.find? name

def find (registry : Registry mode n) (name : String) : Except LookupFault (Handle mode n) :=
  match registry.find? name with
  | some handle => .ok handle
  | none => .error (.jointNotFound (.cut name))

def contains (registry : Registry mode n) (name : String) : Bool :=
  (registry.find? name).isSome

/-- Registers a handle under its own name. -/
def register (registry : Registry mode n) (handle : Handle mode n) :
    Except RegistrationFault (Registry mode n) :=
  match h : BoundedText.ofString? handle.name with
  | none => .error .nameTooLong
  | some joint =>
    if isOld : joint ∈ registry.handles.joints then .error (.duplicateJoint joint)
    else if hasRoom : registry.handles.size < registry.capacity then
      .ok { registry with
        handles := registry.handles.push joint handle isOld hasRoom
        named := by
          simp only [Roster.push, List.mem_append, List.mem_singleton]
          rintro entry (old | rfl)
          · exact registry.named entry old
          · exact BoundedText.ofString?_eq_some_iff.1 h }
    else .error (.registryFull registry.capacity)

/-- One tick of every handle, in the order of registration. -/
def enforce (registry : Registry mode n) (period : Period) (joints : Joints n) : Joints n :=
  registry.handles.entries.foldl (fun joints (_, handle) => handle.enforce period joints) joints

/-- One tick of the handle of that name. -/
def enforceOne (registry : Registry mode n) (name : String) (period : Period)
    (joints : Joints n) : Except LookupFault (Joints n) :=
  (registry.find name).map fun handle => handle.enforce period joints

/-- The names as a list of quoted texts. -/
def text (registry : Registry mode n) : String :=
  "[" ++ String.intercalate ", " (registry.names.map quoted) ++ "]"

end Registry

end JointGuard
