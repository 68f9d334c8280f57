import JointGuard.Fault

/-! # Rosters

A roster keeps one item for each of at most `capacity` joints, in the order in which the joints
came.  An item is found by the exact text of its joint's name, so that a text of more than 32 bytes
finds nothing. -/

namespace JointGuard
open Text

structure Roster (α : Type) (capacity : Nat) where
  entries : List (JointName × α) := []
  distinct : (entries.map (·.1)).Nodup := by simp
  fits : entries.length ≤ capacity := by simp

namespace Roster

variable {α : Type} {capacity : Nat}

def empty : Roster α capacity := {}

def size (roster : Roster α capacity) : Nat := roster.entries.length

def joints (roster : Roster α capacity) : List JointName := roster.entries.map (·.1)

def names (roster : Roster α capacity) : List String := roster.entries.map (·.1.text)

def find? (roster : Roster α capacity) (name : String) : Option α :=
  (BoundedText.ofString? name).bind fun joint => roster.entries.lookup joint

/-- Adds a joint that is new, where there is room. -/
def push (roster : Roster α capacity) (joint : JointName) (item : α)
    (isNew : joint ∉ roster.joints) (hasRoom : roster.size < capacity) : Roster α capacity where
  entries := roster.entries ++ [(joint, item)]
  distinct := by
    rw [List.map_append, List.nodup_append]
    refine ⟨roster.distinct, by simp, ?_⟩
    intro old hold new hnew heq
    simp only [List.map_singleton, List.mem_singleton] at hnew
    exact isNew (heq.trans hnew ▸ hold)
  fits := by rw [List.length_append]; exact hasRoom

/-- Gives a joint another item, in its place. -/
def replace (roster : Roster α capacity) (joint : JointName) (item : α) : Roster α capacity where
  entries := roster.entries.map fun entry => if entry.1 = joint then (joint, item) else entry
  distinct := by
    rw [List.map_map, List.map_congr_left (g := (·.1)) fun entry _ => ?_]
    · exact roster.distinct
    · simp only [Function.comp]
      split <;> simp_all
  fits := by rw [List.length_map]; exact roster.fits

end Roster

end JointGuard
