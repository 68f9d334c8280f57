import JointGuard.Proofs.Config.Grammar

/-! # Reading records of joints

Reading a record asks for what the grammar demands, in the same order, and fails at the first demand
that is not met; where it succeeds, every field holds what the record gives for it.  A date or time
is not a record, but shows itself as one, so it is left out here. -/

namespace JointGuard
open Toml

def Toml.Value.isMoment : Value → Bool
  | .moment _ => true
  | _ => false

theorem readNumber_eq_ok_iff {value : Value} {x : Float} :
    readNumber value = .ok x ↔ Numeric value x := by
  constructor
  · intro h
    cases value <;> cases h
    · exact .integer (Floating.isNearest_ofInt _)
    · exact .float _
  · rintro (hnearest | x)
    · exact congrArg Except.ok ((Floating.isNearest_ofInt _).unique hnearest)
    · rfl

theorem asks_readNumber (value : Value) : Asks [.number value] (readNumber value) := by
  cases value with
  | integer n => exact .pass (isNumber_integer n) (.done _)
  | float x => exact .pass ⟨_, .float x⟩ (.done _)
  | _ => exact .fail _ (by rintro ⟨x, ⟨⟩⟩)

theorem asks_readTruth (value : Value) : Asks [.truth value] (readTruth value) := by
  cases value with
  | boolean b => exact .pass ⟨b, rfl⟩ (.done b)
  | _ => exact .fail _ (by rintro ⟨b, ⟨⟩⟩)

theorem readTruth_eq_ok_iff {value : Value} {b : Bool} :
    readTruth value = .ok b ↔ value = .boolean b := by
  cases value <;> simp [readTruth]

namespace SoftDraft

variable {draft next : SoftDraft} {field other : SoftField} {value : Value}

def get (draft : SoftDraft) : SoftField → Option Float
  | .positionGain => draft.positionGain
  | .velocityGain => draft.velocityGain
  | .minPosition => draft.minPosition
  | .maxPosition => draft.maxPosition

theorem get_set (x : Float) :
    (draft.set field x).get other = if other = field then some x else draft.get other := by
  cases field <;> cases other <;> rfl

def Shows (draft : SoftDraft) (field : SoftField) (given : Option Value) : Prop :=
  Option.Rel Numeric given (draft.get field)

theorem shows_read (h : draft.read field value = .ok next) (given : Option Value)
    (hdraft : draft.Shows other given) :
    next.Shows other (if other = field then some value else given) := by
  obtain ⟨x, hx, rfl⟩ := map_eq_ok_iff.1 h
  rw [Shows, get_set]
  split
  · exact .some (readNumber_eq_ok_iff.1 hx)
  · exact hdraft

/-- The draft of the fields that a record gives. -/
def ofRecord (record : Value) : Except RecordFault SoftDraft :=
  (SoftField.schema.fields record).foldlM (fun draft (field, value) => draft.read field value) {}

theorem asks_ofRecord (record : Value) :
    Asks ((SoftField.schema.fields record).map (.number ·.2)) (ofRecord record) := by
  rw [List.map_eq_flatMap]
  exact Screened.foldlM (fun (field, value) _ draft => (asks_readNumber value).map _) _

theorem shows_ofRecord {record : Value} (hrecord : SoftField.schema.IsClear record)
    (h : ofRecord record = .ok draft) (field : SoftField) :
    draft.Shows field (SoftField.schema.given? record field) := by
  have hempty : Shows {} field none := by cases field <;> exact .none
  have hshows := Schema.shows_of_foldlM Shows hrecord
    (fun _ _ _ _ hread _ => shows_read hread) h hempty
  rwa [Option.or_none, Schema.lookup_fields] at hshows

theorem need_eq_ok_iff {found : Option Float} {x : Float} :
    need field found = .ok x ↔ found = some x := by
  cases found <;> simp [need]

variable {record : Value}
  (hdraft : ∀ field, draft.Shows field (SoftField.schema.given? record field))
include hdraft

theorem asks_need (field : SoftField) :
    Asks [.softField record field] (need field (draft.get field)) := by
  have hshows := hdraft field
  have hmet : (Demand.softField record field).IsMet ↔
      (SoftField.schema.given? record field).isSome := .rfl
  rw [Shows] at hshows
  generalize SoftField.schema.given? record field = given at hshows hmet
  generalize draft.get field = found at hshows
  cases hshows with
  | none => exact .fail _ (by simp [hmet])
  | some hx => exact .pass (by simp [hmet]) (.done _)

theorem asks_complete : Asks (SoftField.declared.map (.softField record)) draft.complete := by
  have hneed := asks_need hdraft
  exact (hneed .positionGain).bind [_, _, _] fun _ _ => (hneed .velocityGain).bind [_, _] fun _ _ =>
    (hneed .minPosition).bind [_] fun _ _ => (hneed .maxPosition).bind [] fun _ _ => .done _

theorem holds_of_complete {soft : SoftLimits} (h : draft.complete = .ok soft) :
    soft.Holds record := by
  obtain ⟨positionGain, hpositionGain, h⟩ := exists_ok_of_bind h
  obtain ⟨velocityGain, hvelocityGain, h⟩ := exists_ok_of_bind h
  obtain ⟨minPosition, hminPosition, h⟩ := exists_ok_of_bind h
  obtain ⟨maxPosition, hmaxPosition, h⟩ := exists_ok_of_bind h
  cases h
  rw [need_eq_ok_iff] at hpositionGain hvelocityGain hminPosition hmaxPosition
  have hget (field : SoftField) : draft.get field =
      some (SoftLimits.get { positionGain, velocityGain, minPosition, maxPosition } field) := by
    cases field <;> assumption
  intro field
  have hshows := hdraft field
  rw [Shows, hget] at hshows
  generalize SoftField.schema.given? record field = given at hshows ⊢
  cases hshows with
  | some hx => exact ⟨_, rfl, hx⟩

end SoftDraft

namespace SoftLimits

theorem ofTable_eq (entries : Table) :
    ofTable entries = SoftDraft.ofRecord (.table entries) >>= SoftDraft.complete := by
  refine congrArg (· >>= SoftDraft.complete)
    (SoftField.schema.foldlM_table SoftDraft.read ?_ entries _)
  intro draft key value
  rw [SoftField.ofKey?_schema]
  cases hkey : SoftField.ofKey? key <;> simp [hkey]

theorem ofItems_eq (items : List Value) :
    ofItems items = SoftDraft.ofRecord (.array items) >>= fun draft =>
      if items.length < SoftField.declared.length then .error (.shortSoftRecord items.length)
      else draft.complete := rfl

variable {record : Value}

theorem isSome_given?_array {items : List Value} (h : SoftField.declared.length ≤ items.length)
    (field : SoftField) : (SoftField.schema.given? (.array items) field).isSome := by
  rw [Option.isSome_iff_ne_none, Schema.given?, Ne, Association.lookup_eq_none_iff,
    Association.map_fst_zip, Classical.not_not]
  rw [List.take_of_length_le (show SoftField.schema.declared.length ≤ items.length from h)]
  exact SoftField.schema.complete field

theorem asks_ofValue (hrecord : SoftField.schema.IsClear record)
    (hmoment : record.isMoment = false) :
    Asks (demands record) (ofValue record) := by
  cases record with
  | table entries =>
    refine .pass (.table entries) ?_
    change Asks _ (ofTable entries)
    rw [ofTable_eq]
    exact (SoftDraft.asks_ofRecord _).bind _ fun draft hdraft =>
      SoftDraft.asks_complete (SoftDraft.shows_ofRecord hrecord hdraft)
  | array items =>
    refine .pass (.array items) ?_
    change Asks _ (ofItems items)
    rw [ofItems_eq]
    refine (SoftDraft.asks_ofRecord _).bind _ fun draft hdraft => ?_
    by_cases hlength : SoftField.declared.length ≤ items.length
    · have hcomplete := SoftDraft.asks_complete (SoftDraft.shows_ofRecord hrecord hdraft)
      obtain ⟨soft, hsoft⟩ := hcomplete.exists_ok_iff.2 fun demand hdemand => by
        obtain ⟨field, -, rfl⟩ := List.mem_map.1 hdemand
        exact isSome_given?_array hlength field
      rw [if_neg (Nat.not_lt.2 hlength), hsoft]
      exact .pass hlength (.done soft)
    · rw [if_pos (Nat.not_le.1 hlength)]
      exact .fail _ hlength
  | moment => cases hmoment
  | _ => exact .fail _ (by rintro ⟨⟩)

theorem holds_of_ofValue (hrecord : SoftField.schema.IsClear record)
    (hmoment : record.isMoment = false) {soft : SoftLimits} (h : ofValue record = .ok soft) :
    soft.Holds record := by
  cases record with
  | table entries =>
    change ofTable entries = _ at h
    rw [ofTable_eq] at h
    obtain ⟨draft, hdraft, h⟩ := exists_ok_of_bind h
    exact SoftDraft.holds_of_complete (SoftDraft.shows_ofRecord hrecord hdraft) h
  | array items =>
    change ofItems items = _ at h
    rw [ofItems_eq] at h
    obtain ⟨draft, hdraft, h⟩ := exists_ok_of_bind h
    split at h
    · cases h
    · exact SoftDraft.holds_of_complete (SoftDraft.shows_ofRecord hrecord hdraft) h
  | moment => cases hmoment
  | _ => cases h

end SoftLimits

namespace JointField

variable {field : JointField} {value : Value}

theorem asks_read (hvalue : field = .soft → SoftField.schema.IsClear value)
    (hmoment : field = .soft → value.isMoment = false) (settings : JointSettings) :
    Asks (field.demands value) (settings.read field value) := by
  cases field with
  | wraps => exact (asks_readTruth value).map _
  | soft => exact (SoftLimits.asks_ofValue (hvalue rfl) (hmoment rfl)).map _
  | _ => exact (asks_readNumber value).map _

end JointField

namespace JointSettings

variable {settings next : JointSettings} {field other : JointField} {value : Value}

theorem magnitude_setMagnitude (limit kind : Magnitude) (x : Float) :
    (settings.setMagnitude limit x).magnitude kind =
      if kind = limit then some x else settings.magnitude kind := by
  cases limit <;> cases kind <;> rfl

theorem shows_read (hvalue : field = .soft → SoftField.schema.IsClear value)
    (hmoment : field = .soft → value.isMoment = false)
    (h : settings.read field value = .ok next) {given : Option Value}
    (hsettings : settings.Shows other given) :
    next.Shows other (if other = field then some value else given) := by
  cases field with
  | minPosition =>
    obtain ⟨x, hx, rfl⟩ := map_eq_ok_iff.1 h
    cases other with
    | minPosition => exact .some (readNumber_eq_ok_iff.1 hx)
    | _ => exact hsettings
  | maxPosition =>
    obtain ⟨x, hx, rfl⟩ := map_eq_ok_iff.1 h
    cases other with
    | maxPosition => exact .some (readNumber_eq_ok_iff.1 hx)
    | _ => exact hsettings
  | magnitude limit =>
    obtain ⟨x, hx, rfl⟩ := map_eq_ok_iff.1 h
    cases other with
    | magnitude kind =>
      simp only [Shows, magnitude_setMagnitude, JointField.magnitude.injEq]
      split
      · exact .some (readNumber_eq_ok_iff.1 hx)
      · exact hsettings
    | _ => cases limit <;> exact hsettings
  | wraps =>
    obtain ⟨b, hb, rfl⟩ := map_eq_ok_iff.1 h
    cases other with
    | wraps => exact readTruth_eq_ok_iff.1 hb
    | _ => exact hsettings
  | soft =>
    obtain ⟨soft, hsoft, rfl⟩ := map_eq_ok_iff.1 h
    cases other with
    | soft => exact .some (SoftLimits.holds_of_ofValue (hvalue rfl) (hmoment rfl) hsoft)
    | _ => exact hsettings

/-- The settings of the fields that a record gives. -/
def ofRecord (record : Value) : Except RecordFault JointSettings :=
  (JointField.schema.fields record).foldlM
    (fun settings (field, value) => settings.read field value) {}

theorem ofTable_eq (entries : Table) : ofTable entries = ofRecord (.table entries) := by
  refine JointField.schema.foldlM_table JointSettings.read ?_ entries _
  intro settings key value
  rw [JointField.ofKey?_schema]
  cases hkey : JointField.ofKey? key <;> simp [hkey]

variable {record : Value}

/-- Neither the record nor the soft limits in it are a date or time. -/
def IsTimeless (record : Value) : Prop :=
  record.isMoment = false ∧
    ∀ soft ∈ JointField.schema.given? record .soft, soft.isMoment = false

theorem IsTimeless.isMoment_of_mem_fields (htimeless : IsTimeless record)
    (hrecord : IsClear record) (h : (field, value) ∈ JointField.schema.fields record)
    (hsoft : field = .soft) : value.isMoment = false := by
  subst hsoft
  exact htimeless.2 value ((Schema.mem_fields_iff _ hrecord.fields).1 h)

theorem asks_ofRecord (hrecord : IsClear record) (htimeless : IsTimeless record) :
    Asks ((JointField.schema.fields record).flatMap fun (field, value) => field.demands value)
      (ofRecord record) :=
  Screened.foldlM (fun (_, _) hmem settings => JointField.asks_read
    (hrecord.of_mem_fields hmem) (htimeless.isMoment_of_mem_fields hrecord hmem)
    settings) _

theorem holds_ofRecord (hrecord : IsClear record) (htimeless : IsTimeless record)
    (h : ofRecord record = .ok settings) : settings.Holds record := by
  intro field
  have hempty : Shows {} field none := by
    rcases field with _ | _ | limit | _ | _
    case magnitude => cases limit <;> exact .none
    case wraps => rfl
    all_goals exact .none
  have hshows := Schema.shows_of_foldlM Shows hrecord.fields
    (fun (_, _) hmem _ _ hread _ _ => shows_read (hrecord.of_mem_fields hmem)
      (htimeless.isMoment_of_mem_fields hrecord hmem) hread) h hempty
  rwa [Option.or_none, Schema.lookup_fields] at hshows

theorem asks_ofValue (hrecord : IsClear record) (htimeless : IsTimeless record) :
    Asks (demands record) (ofValue record) := by
  cases record with
  | table entries =>
    refine .pass (.table entries) ?_
    change Asks _ (ofTable entries)
    rw [ofTable_eq]
    exact asks_ofRecord hrecord htimeless
  | array items => exact .pass (.array items) (asks_ofRecord hrecord htimeless)
  | moment => cases htimeless.1
  | _ => exact .fail _ (by rintro ⟨⟩)

theorem holds_of_ofValue (hrecord : IsClear record) (htimeless : IsTimeless record)
    (h : ofValue record = .ok settings) : settings.Holds record := by
  cases record with
  | table entries =>
    change ofTable entries = _ at h
    rw [ofTable_eq] at h
    exact holds_ofRecord hrecord htimeless h
  | array items => exact holds_ofRecord hrecord htimeless h
  | moment => cases htimeless.1
  | _ => cases h

end JointSettings

end JointGuard
