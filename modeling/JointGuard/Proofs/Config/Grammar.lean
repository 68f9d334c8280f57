import JointGuard.Proofs.Config.Fields
import JointGuard.Proofs.Floating.Arithmetic

/-! # The grammar of limits files

Which values are records of soft limits, of joints and of configurations, and what these records
say.  Reading asks for one thing after the other, and the grammar is what meets every demand
(`Config.forall_demands_iff`). -/

namespace JointGuard
open Text Toml

/-- The number that a value stands for; for an integer it is the nearest one. -/
inductive Numeric : Value → Float → Prop
  | integer {n : Int64} {x : Float} (hnearest : Floating.IsNearest n.toInt x) :
      Numeric (.integer n) x
  | float (x : Float) : Numeric (.float x) x

def IsNumber (value : Value) : Prop := ∃ x, Numeric value x

theorem isNumber_integer (n : Int64) : IsNumber (.integer n) :=
  ⟨_, .integer (Floating.isNearest_ofInt n.toInt)⟩

def IsTruth (value : Value) : Prop := ∃ b, value = .boolean b

/-- A record in one of its two notations, whatever its fields. -/
inductive IsRecord : Value → Prop
  | table (entries : Table) : IsRecord (.table entries)
  | array (items : List Value) : IsRecord (.array items)

def SoftField.schema : Schema SoftField where
  declared := declared
  key := key
  complete field := by cases field <;> decide
  distinct := by decide

def JointField.schema : Schema JointField where
  declared := declared
  key := key
  complete field := by
    rcases field with _ | _ | limit | _ | _
    case magnitude => cases limit <;> decide
    all_goals decide
  distinct := by decide

theorem SoftField.ofKey?_schema (key : String) : schema.ofKey? key = ofKey? key := rfl

theorem JointField.ofKey?_schema (key : String) : schema.ofKey? key = ofKey? key := rfl

/-- A record of soft limits gives all four fields, as a table or as the first items of an array. -/
inductive IsSoftRecord : Value → Prop
  | table {entries : Table}
      (hfields : ∀ field : SoftField, ∃ value, entries.lookup field.key = some value ∧
        IsNumber value) : IsSoftRecord (.table entries)
  | array {items : List Value} (hlength : SoftField.declared.length ≤ items.length)
      (hitems : ∀ item ∈ items.take SoftField.declared.length, IsNumber item) :
      IsSoftRecord (.array items)

/-- The values that a field of a joint can have. -/
def JointField.Takes : JointField → Value → Prop
  | .minPosition => IsNumber
  | .maxPosition => IsNumber
  | .magnitude _ => IsNumber
  | .wraps => IsTruth
  | .soft => IsSoftRecord

/-- In the record of a joint every field that is given is well typed. -/
inductive IsJointRecord : Value → Prop
  | table {entries : Table}
      (hfields : ∀ (field : JointField) value, entries.lookup field.key = some value →
        field.Takes value) : IsJointRecord (.table entries)
  | array {items : List Value}
      (hitems : ∀ entry ∈ JointField.declared.zip items, entry.1.Takes entry.2) :
      IsJointRecord (.array items)

/-- A joint under a name that is not too long. -/
def IsJointEntry (entry : String × Value) : Prop :=
  entry.1.utf8ByteSize ≤ 32 ∧ IsJointRecord entry.2

/-- The joints of a configuration, at most 32 of them. -/
inductive IsJointMap : Value → Prop
  | table {entries : Table} (hlength : entries.length ≤ Config.maxJoints)
      (hentries : ∀ entry ∈ entries, IsJointEntry entry) : IsJointMap (.table entries)

/-- A document with a configuration may have no joints at all. -/
def IsConfigDocument (document : Table) : Prop :=
  ∀ joints, document.lookup Config.jointsKey = some joints → IsJointMap joints

def SoftLimits.get (soft : SoftLimits) : SoftField → Float
  | .positionGain => soft.positionGain
  | .velocityGain => soft.velocityGain
  | .minPosition => soft.minPosition
  | .maxPosition => soft.maxPosition

/-- The soft limits are those of the record. -/
def SoftLimits.Holds (soft : SoftLimits) (record : Value) : Prop :=
  ∀ field, ∃ value, SoftField.schema.given? record field = some value ∧
    Numeric value (soft.get field)

/-- The settings have a field as it is given; a field that is not given is absent or false. -/
def JointSettings.Shows (settings : JointSettings) : JointField → Option Value → Prop
  | .minPosition, given => Option.Rel Numeric given settings.minPosition
  | .maxPosition, given => Option.Rel Numeric given settings.maxPosition
  | .magnitude limit, given => Option.Rel Numeric given (settings.magnitude limit)
  | .wraps, given => given.elim (settings.wraps = false) (· = .boolean settings.wraps)
  | .soft, given => Option.Rel (fun record soft => soft.Holds record) given settings.soft

/-- The settings are those of the record. -/
def JointSettings.Holds (settings : JointSettings) (record : Value) : Prop :=
  ∀ field, settings.Shows field (JointField.schema.given? record field)

/-- The joints of a document with their records, in document order. -/
def jointEntries (document : Table) : Table :=
  match document.lookup Config.jointsKey with
  | some (.table entries) => entries
  | _ => []

/-- The configuration has one joint for each that the document has, in the same order. -/
def Config.Holds (config : Config) (document : Table) : Prop :=
  List.Forall₂ (fun (name, record) (joint, settings) =>
    BoundedText.text joint = name ∧ JointSettings.Holds settings record)
    (jointEntries document) config.joints.entries

/-- What reading can ask for. -/
inductive Demand where
  | number (found : Value)
  | truth (found : Value)
  | softRecord (found : Value)
  | softField (record : Value) (field : SoftField)
  | softItems (count : Nat)
  | jointRecord (found : Value)
  | jointName (name : String)
  | room (index : Nat)
  | jointMap (found : Value)

namespace Demand

def IsMet : Demand → Prop
  | .number found => IsNumber found
  | .truth found => IsTruth found
  | .softRecord found => IsRecord found
  | .softField record field => (SoftField.schema.given? record field).isSome
  | .softItems count => SoftField.declared.length ≤ count
  | .jointRecord found => IsRecord found
  | .jointName name => name.utf8ByteSize ≤ 32
  | .room index => index < Config.maxJoints
  | .jointMap found => ∃ entries, found = .table entries

def fault : Demand → RecordFault
  | .number found => .wrongType found .number
  | .truth found => .wrongType found .truth
  | .softRecord found => .wrongType found .softRecord
  | .softField _ field => .missingField field
  | .softItems count => .shortSoftRecord count
  | .jointRecord found => .wrongType found .jointRecord
  | .jointName name => .longName name.utf8ByteSize
  | .room _ => .tooManyJoints (Config.maxJoints + 1)
  | .jointMap found => .wrongType found .jointMap

end Demand

/-- The result of a reading that asks for this, in this order. -/
abbrev Asks {α : Type} (demands : List Demand) (result : Except RecordFault α) : Prop :=
  Screened Demand.IsMet Demand.fault demands result

/-- The fields of soft limits in reading order; then a table has to have all of them, and an array
has to have enough items. -/
def SoftLimits.demands (record : Value) : List Demand :=
  .softRecord record :: (SoftField.schema.fields record).map (.number ·.2) ++
    match record with
    | .table _ => SoftField.declared.map (.softField record)
    | .array items => [.softItems items.length]
    | _ => []

def JointField.demands (value : Value) : JointField → List Demand
  | .minPosition => [.number value]
  | .maxPosition => [.number value]
  | .magnitude _ => [.number value]
  | .wraps => [.truth value]
  | .soft => SoftLimits.demands value

def JointSettings.demands (record : Value) : List Demand :=
  .jointRecord record ::
    (JointField.schema.fields record).flatMap fun (field, value) => field.demands value

/-- A name, then the record under it, then room for the joint. -/
def Config.jointDemands (name : String) (record : Value) (index : Nat) : List Demand :=
  .jointName name :: JointSettings.demands record ++ [.room index]

def Config.demands (document : Table) : List Demand :=
  match document.lookup jointsKey with
  | none => []
  | some joints => .jointMap joints ::
      (jointEntries document).zipIdx.flatMap fun ((name, record), index) =>
        jointDemands name record index

/-- Neither the record of a joint nor the soft limits in it give a field twice. -/
structure JointSettings.IsClear (record : Value) : Prop where
  fields : JointField.schema.IsClear record
  soft : ∀ soft ∈ JointField.schema.given? record .soft, SoftField.schema.IsClear soft

theorem JointSettings.isClear_of_isDistinct {record : Value} (h : record.IsDistinct) :
    IsClear record := by
  have hfields := JointField.schema.isClear_of_isDistinct h
  refine ⟨hfields, fun soft hsoft => SoftField.schema.isClear_of_isDistinct ?_⟩
  have hmem := (JointField.schema.mem_fields_iff hfields).2 hsoft
  exact JointField.schema.isDistinct_of_mem_fields h hmem

theorem JointSettings.IsClear.of_mem_fields {record value : Value} {field : JointField}
    (h : IsClear record) (hmem : (field, value) ∈ JointField.schema.fields record)
    (hsoft : field = .soft) : SoftField.schema.IsClear value := by
  subst hsoft
  exact h.soft value ((JointField.schema.mem_fields_iff h.fields).1 hmem)

theorem SoftLimits.forall_demands_iff {record : Value}
    (hrecord : SoftField.schema.IsClear record) :
    (∀ demand ∈ demands record, demand.IsMet) ↔ IsSoftRecord record := by
  cases record with
  | table entries =>
    simp only [demands, List.cons_append, List.forall_mem_cons, List.forall_mem_append,
      List.forall_mem_map]
    constructor
    · rintro ⟨-, hnumbers, hgiven⟩
      refine .table fun field => ?_
      obtain ⟨value, hvalue⟩ :=
        Option.isSome_iff_exists.1 (hgiven field (SoftField.schema.complete field))
      have hmem := (SoftField.schema.mem_fields_iff hrecord).2 hvalue
      exact ⟨value, hvalue, hnumbers (field, value) hmem⟩
    · rintro ⟨hfields⟩
      refine ⟨.table entries, fun (field, value) hmem => ?_, fun field _ => ?_⟩
      · obtain ⟨found, hfound, hnumber⟩ := hfields field
        have hvalue : entries.lookup field.key = some value :=
          (SoftField.schema.mem_fields_iff hrecord).1 hmem
        cases hvalue.symm.trans hfound
        exact hnumber
      · obtain ⟨found, hfound, -⟩ := hfields field
        exact Option.isSome_iff_exists.2 ⟨found, hfound⟩
  | array items =>
    have hzip : (∀ entry ∈ SoftField.declared.zip items, IsNumber entry.2) ↔
        ∀ item ∈ items.take SoftField.declared.length, IsNumber item := by
      rw [← Association.map_snd_zip, List.forall_mem_map]
    simp only [demands, List.cons_append, List.forall_mem_cons, List.forall_mem_append,
      List.forall_mem_map]
    constructor
    · rintro ⟨-, hnumbers, hlength, -⟩
      exact .array hlength (hzip.1 hnumbers)
    · rintro (_ | ⟨hlength, hitems⟩)
      exact ⟨.array items, hzip.2 hitems, hlength, by simp⟩
  | _ =>
    constructor
    · intro h
      cases h _ List.mem_cons_self
    · intro h
      cases h

theorem JointField.forall_demands_iff {field : JointField} {value : Value}
    (hvalue : field = .soft → SoftField.schema.IsClear value) :
    (∀ demand ∈ field.demands value, demand.IsMet) ↔ field.Takes value := by
  cases field with
  | soft => exact SoftLimits.forall_demands_iff (hvalue rfl)
  | _ => simp [demands, Demand.IsMet, Takes]

theorem JointSettings.forall_demands_iff {record : Value} (hrecord : IsClear record) :
    (∀ demand ∈ demands record, demand.IsMet) ↔ IsJointRecord record := by
  have hfields : (∀ demand ∈ demands record, demand.IsMet) ↔
      IsRecord record ∧ ∀ entry ∈ JointField.schema.fields record, entry.1.Takes entry.2 := by
    rw [demands, List.forall_mem_cons, List.forall_mem_flatMap]
    refine and_congr_right fun _ => forall₂_congr fun (field, value) hmem => ?_
    exact JointField.forall_demands_iff (hrecord.of_mem_fields hmem)
  rw [hfields]
  cases record with
  | table entries =>
    constructor
    · rintro ⟨-, htakes⟩
      refine .table fun field value hvalue => ?_
      exact htakes (field, value) ((JointField.schema.mem_fields_iff hrecord.fields).2 hvalue)
    · rintro ⟨htakes⟩
      refine ⟨.table entries, fun (field, value) hmem => ?_⟩
      exact htakes field value ((JointField.schema.mem_fields_iff hrecord.fields).1 hmem)
  | array items =>
    constructor
    · rintro ⟨-, htakes⟩
      exact .array htakes
    · rintro (_ | htakes)
      exact ⟨.array items, htakes⟩
  | _ =>
    constructor
    · rintro ⟨h, -⟩
      cases h
    · intro h
      cases h

theorem isDistinct_jointEntries {document : Table} (h : (Value.table document).IsDistinct) :
    (Value.table (jointEntries document)).IsDistinct := by
  rw [jointEntries]
  split
  next entries hjoints => exact h.of_lookup hjoints
  next => exact .table List.nodup_nil (by simp)

theorem Config.forall_jointDemands_iff (name : String) {record : Value}
    (hrecord : record.IsDistinct) (index : Nat) :
    (∀ demand ∈ jointDemands name record index, demand.IsMet) ↔
      IsJointEntry (name, record) ∧ index < maxJoints := by
  rw [jointDemands, List.cons_append, List.forall_mem_cons, List.forall_mem_append,
    JointSettings.forall_demands_iff (JointSettings.isClear_of_isDistinct hrecord),
    List.forall_mem_singleton, IsJointEntry, and_assoc]
  rfl

/-- The places in a list are below its length, and each of them is taken. -/
theorem forall_mem_zipIdx_iff {α : Type} (property : α → Prop) {list : List α} {bound : Nat} :
    (∀ entry ∈ list.zipIdx, property entry.1 ∧ entry.2 < bound) ↔
      list.length ≤ bound ∧ ∀ a ∈ list, property a := by
  have hmem {index : Nat} (hindex : index < list.length) :
      (list[index], index) ∈ list.zipIdx :=
    List.mk_mem_zipIdx_iff_getElem?.2 (List.getElem?_eq_getElem hindex)
  constructor
  · intro hall
    refine ⟨?_, fun a ha => ?_⟩
    · by_contra hlong
      exact absurd (hall _ (hmem (Nat.not_le.1 hlong))).2 (Nat.lt_irrefl _)
    · obtain ⟨index, hindex, rfl⟩ := List.mem_iff_getElem.1 ha
      exact (hall _ (hmem hindex)).1
  · rintro ⟨hlength, hall⟩ entry hentry
    have hindex := List.snd_lt_of_mem_zipIdx hentry
    exact ⟨hall _ (List.fst_mem_of_mem_zipIdx hentry), by omega⟩

theorem Config.forall_demands_iff {document : Table} (h : (Value.table document).IsDistinct) :
    (∀ demand ∈ demands document, demand.IsMet) ↔ IsConfigDocument document := by
  rw [demands, IsConfigDocument]
  cases hjoints : document.lookup jointsKey with
  | none => simp
  | some joints =>
    simp only [List.forall_mem_cons, List.forall_mem_flatMap, Option.some.injEq, forall_eq']
    cases joints with
    | table entries =>
      have hjoint (entry : (String × Value) × Nat) (hentry : entry ∈ entries.zipIdx) :=
        forall_jointDemands_iff entry.1.1
          ((h.of_lookup hjoints).of_mem (List.fst_mem_of_mem_zipIdx hentry)) entry.2
      have hall := (forall₂_congr hjoint).trans (forall_mem_zipIdx_iff IsJointEntry)
      simp only [jointEntries, hjoints, hall]
      constructor
      · rintro ⟨-, hlength, hall⟩
        exact .table hlength hall
      · rintro ⟨hlength, hall⟩
        exact ⟨⟨entries, rfl⟩, hlength, hall⟩
    | _ =>
      constructor
      · rintro ⟨⟨entries, heq⟩, -⟩
        cases heq
      · intro h
        cases h

end JointGuard
