import JointGuard.Config.Record
import JointGuard.Proofs.Screening
import JointGuard.Proofs.Toml.DistinctKeys
import Mathlib.Data.List.Nodup

/-! # Fields of a record

A record gives the value of a field under the key of the field in a table, and in the declared place
of the field in an array.  A pass through the fields that a record gives leaves each of them as it
was given (`Schema.shows_of_foldlM`). -/

namespace JointGuard
open Toml

/-- The fields of a kind of record, in declared order, each with a key of its own. -/
structure Schema (Field : Type) where
  declared : List Field
  key : Field → String
  complete : ∀ field, field ∈ declared
  distinct : (declared.map key).Nodup

namespace Schema

variable {Field : Type} (schema : Schema Field)

def ofKey? (key : String) : Option Field := schema.declared.find? (schema.key · = key)

/-- The fields that a record gives, in reading order. -/
def fields : Value → List (Field × Value)
  | .table entries => entries.filterMap fun (key, value) => (schema.ofKey? key).map (·, value)
  | .array items => schema.declared.zip items
  | _ => []

theorem ofKey?_eq_some_iff {key : String} {field : Field} :
    schema.ofKey? key = some field ↔ schema.key field = key := by
  constructor
  · intro h
    simpa using List.find?_some h
  · rintro rfl
    have hfound : (schema.ofKey? (schema.key field)).isSome :=
      List.find?_isSome.2 ⟨field, schema.complete field, by simp⟩
    obtain ⟨found, hfound⟩ := Option.isSome_iff_exists.1 hfound
    have hkey : schema.key found = schema.key field := by simpa using List.find?_some hfound
    rw [hfound, List.inj_on_of_nodup_map schema.distinct (schema.complete found)
      (schema.complete field) hkey]

theorem nodup_declared : schema.declared.Nodup := .of_map _ schema.distinct

/-- The record gives no field twice. -/
def IsClear (record : Value) : Prop := ((schema.fields record).map (·.1)).Nodup

theorem isClear_of_isDistinct {record : Value} (h : record.IsDistinct) : schema.IsClear record := by
  rw [IsClear]
  cases h with
  | @table entries hkeys _ =>
    have hmap : (schema.fields (.table entries)).map (·.1) =
        (entries.map (·.1)).filterMap schema.ofKey? := by
      rw [fields, List.map_filterMap, List.filterMap_map]
      refine List.filterMap_congr fun (key, value) _ => ?_
      simp [Function.comp_def]
    rw [hmap]
    refine hkeys.filterMap fun key other field hkey hother => ?_
    rw [← schema.ofKey?_eq_some_iff.1 hkey, schema.ofKey?_eq_some_iff.1 hother]
  | array =>
    rw [fields, Association.map_fst_zip]
    exact schema.nodup_declared.sublist (List.take_sublist _ _)
  | _ => exact List.nodup_nil

theorem isDistinct_of_mem_fields {record value : Value} {field : Field} (h : record.IsDistinct)
    (hmem : (field, value) ∈ schema.fields record) : value.IsDistinct := by
  cases h with
  | table _ hvalues =>
    obtain ⟨entry, hentry, heq⟩ := List.mem_filterMap.1 hmem
    obtain ⟨_, _, heq⟩ := Option.map_eq_some_iff.1 heq
    cases heq
    exact hvalues entry hentry
  | array hitems => exact hitems value (List.of_mem_zip hmem).2
  | _ => cases hmem

section
variable [DecidableEq Field]

/-- The value that a record gives for a field. -/
def given? (record : Value) (field : Field) : Option Value :=
  match record with
  | .table entries => entries.lookup (schema.key field)
  | .array items => (schema.declared.zip items).lookup field
  | _ => none

theorem lookup_fields (record : Value) (field : Field) :
    (schema.fields record).lookup field = schema.given? record field := by
  cases record with
  | table entries =>
    rw [fields, given?]
    induction entries with
    | nil => rfl
    | cons entry entries ih =>
      obtain ⟨key, value⟩ := entry
      cases hkey : schema.ofKey? key with
      | none =>
        have hne : schema.key field ≠ key := fun heq => by
          rw [schema.ofKey?_eq_some_iff.2 heq] at hkey
          cases hkey
        simp [hkey, Association.lookup_cons_of_ne hne, ih]
      | some other =>
        simp only [List.filterMap_cons, hkey, Option.map_some]
        obtain rfl := schema.ofKey?_eq_some_iff.1 hkey
        by_cases heq : field = other
        · rw [heq, List.lookup_cons_self, List.lookup_cons_self]
        · have hne : schema.key field ≠ schema.key other := fun hkeys => by
            rw [schema.ofKey?_eq_some_iff.2 hkeys] at hkey
            exact heq (Option.some.inj hkey)
          rw [Association.lookup_cons_of_ne heq, Association.lookup_cons_of_ne hne, ih]
  | _ => rfl

theorem mem_fields_iff {record value : Value} {field : Field} (h : schema.IsClear record) :
    (field, value) ∈ schema.fields record ↔ schema.given? record field = some value := by
  rw [← lookup_fields, Association.lookup_eq_some_iff h]

end

section
variable {State : Type}

/-- Keys that mean nothing are passed over. -/
theorem foldlM_table (read : State → Field → Value → Except RecordFault State)
    {step : State → String × Value → Except RecordFault State}
    (hstep : ∀ state key value, step state (key, value) =
      (schema.ofKey? key).elim (.ok state) fun field => read state field value)
    (entries : Table) (state : State) : entries.foldlM step state =
      (schema.fields (.table entries)).foldlM
        (fun state (field, value) => read state field value) state := by
  rw [fields]
  induction entries generalizing state with
  | nil => rfl
  | cons entry entries ih =>
    obtain ⟨key, value⟩ := entry
    cases hkey : schema.ofKey? key with
    | none => simp [hstep, hkey, ih, bind, Except.bind]
    | some field => simp [hstep, hkey, ih]

/-- What a state shows of each field after a pass through fields that are given: a field that is
given shows as it was given, and any other as before. -/
theorem shows_of_foldlM [DecidableEq Field] (Shows : State → Field → Option Value → Prop)
    {read : State → Field → Value → Except RecordFault State} {fields : List (Field × Value)}
    (hfields : (fields.map (·.1)).Nodup)
    (hread : ∀ entry ∈ fields, ∀ {state next}, read state entry.1 entry.2 = .ok next →
      ∀ other given, Shows state other given →
        Shows next other (if other = entry.1 then some entry.2 else given))
    {state next : State}
    (h : fields.foldlM (fun state (field, value) => read state field value) state = .ok next)
    {field : Field} {given : Option Value} (hstate : Shows state field given) :
    Shows next field ((fields.lookup field).or given) := by
  induction fields generalizing state given with
  | nil =>
    cases h
    exact hstate
  | cons entry fields ih =>
    rw [List.map_cons, List.nodup_cons] at hfields
    obtain ⟨hnew, hfields⟩ := hfields
    obtain ⟨hentry, hread⟩ := List.forall_mem_cons.1 hread
    rw [List.foldlM_cons] at h
    obtain ⟨middle, hmiddle, h⟩ := exists_ok_of_bind h
    have hshows := ih hfields hread h (hentry hmiddle field given hstate)
    obtain ⟨first, value⟩ := entry
    by_cases heq : field = first
    · subst heq
      rw [Association.lookup_eq_none_iff.2 hnew, if_pos rfl, Option.none_or] at hshows
      rwa [List.lookup_cons_self, Option.some_or]
    · rw [if_neg heq] at hshows
      rwa [Association.lookup_cons_of_ne heq]

end

end Schema

end JointGuard
