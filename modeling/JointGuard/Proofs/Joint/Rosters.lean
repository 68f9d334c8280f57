import JointGuard.Joint.Roster
import JointGuard.Proofs.Association

/-! # Names on a roster

The names on a roster are distinct and not too long, and looking a name up finds the item of the
joint of that name. -/

namespace JointGuard
open Text

theorem Text.BoundedText.ofString?_eq_none_iff {limit : Nat} {s : String} :
    (ofString? s : Option (BoundedText limit)) = none ↔ limit < s.utf8ByteSize := by
  simp [ofString?]

namespace Roster

variable {α : Type} {capacity : Nat} (roster : Roster α capacity)

theorem names_eq_map : roster.names = roster.joints.map (·.text) := by
  rw [names, joints, List.map_map]
  rfl

theorem nodup_names : roster.names.Nodup := by
  rw [names_eq_map, List.Nodup, List.pairwise_map]
  exact roster.distinct.imp fun hne heq => hne (BoundedText.text_injective heq)

theorem utf8ByteSize_le_of_mem_names {name : String} (h : name ∈ roster.names) :
    name.utf8ByteSize ≤ 32 := by
  obtain ⟨entry, -, rfl⟩ := List.mem_map.1 h
  exact entry.1.fits

variable {roster}

theorem text_mem_names_iff {joint : JointName} :
    joint.text ∈ roster.names ↔ joint ∈ roster.joints := by
  rw [names_eq_map, List.mem_map]
  constructor
  · rintro ⟨other, hmem, heq⟩
    exact BoundedText.text_injective heq ▸ hmem
  · exact fun h => ⟨joint, h, rfl⟩

theorem find?_eq_some_iff {name : String} {item : α} :
    roster.find? name = some item ↔
      ∃ joint, joint.text = name ∧ (joint, item) ∈ roster.entries := by
  rw [find?, Option.bind_eq_some_iff]
  simp only [BoundedText.ofString?_eq_some_iff, Association.lookup_eq_some_iff roster.distinct]

end Roster

end JointGuard
