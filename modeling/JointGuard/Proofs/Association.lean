import Mathlib.Data.List.Basic

/-! # Entries under keys

Where the keys of a list of entries are distinct, every entry in the list is the one that is found
under its key. -/

namespace JointGuard.Association

variable {κ α : Type} [BEq κ] [LawfulBEq κ] {entries : List (κ × α)} {key : κ} {item : α}

theorem mem_of_lookup (h : entries.lookup key = some item) : (key, item) ∈ entries := by
  obtain ⟨before, after, rfl, -⟩ := List.lookup_eq_some_iff.1 h
  simp

theorem lookup_cons_of_ne {other : κ} (h : key ≠ other) :
    ((other, item) :: entries).lookup key = entries.lookup key := by
  rw [List.lookup_cons, beq_eq_false_iff_ne.2 h]

theorem lookup_eq_none_iff : entries.lookup key = none ↔ key ∉ entries.map (·.1) := by
  rw [List.lookup_eq_none_iff, List.mem_map]
  constructor
  · rintro hall ⟨entry, hentry, rfl⟩
    simpa using hall entry hentry
  · intro hnew entry hentry
    rw [bne_iff_ne]
    rintro rfl
    exact hnew ⟨entry, hentry, rfl⟩

theorem lookup_eq_some_iff (hkeys : (entries.map (·.1)).Nodup) :
    entries.lookup key = some item ↔ (key, item) ∈ entries := by
  refine ⟨mem_of_lookup, fun hmem => ?_⟩
  obtain ⟨before, after, rfl⟩ := List.append_of_mem hmem
  refine List.lookup_eq_some_iff.2 ⟨before, after, rfl, fun entry hentry => ?_⟩
  rw [List.map_append, List.nodup_append] at hkeys
  have hne := hkeys.2.2 entry.1 (List.mem_map_of_mem hentry) key (by simp)
  simpa using hne.symm

omit [BEq κ] [LawfulBEq κ] in
theorem map_fst_zip (keys : List κ) (items : List α) :
    (keys.zip items).map (·.1) = keys.take items.length := by
  induction keys generalizing items with
  | nil => simp
  | cons key keys ih =>
    cases items with
    | nil => rfl
    | cons item items => simp [ih]

omit [BEq κ] [LawfulBEq κ] in
theorem map_snd_zip (keys : List κ) (items : List α) :
    (keys.zip items).map (·.2) = items.take keys.length := by
  induction keys generalizing items with
  | nil => rfl
  | cons key keys ih =>
    cases items with
    | nil => rfl
    | cons item items => simp [ih]

end JointGuard.Association
