import JointGuard.Proofs.Config.Documents

/-! # The two notations of a record

An array gives the fields of a record by their places and a table gives them by their keys.  Both
give the same fields, so a record is read as the same soft limits or the same settings in whichever
notation it is, and so are all the joints of a document (`read_alike`).  Only the order in which the
fields are met may differ (`Schema.Notates.fields_perm`), and no field is met twice. -/

namespace JointGuard
open Toml

theorem zip_take_map {α β : Type} (f : α → β) {list : List α} {count : ℕ} {extra : List β}
    (h : extra = [] ∨ list.length ≤ count) :
    list.zip ((list.take count).map f ++ extra) = (list.take count).map fun a => (a, f a) := by
  induction list generalizing count with
  | nil => simp
  | cons a list ih =>
    cases count with
    | zero =>
      obtain rfl := h.resolve_right (by simp)
      rfl
    | succ count =>
      rw [List.take_succ_cons, List.map_cons, List.map_cons, List.cons_append, List.zip_cons_cons,
        ih (h.imp_right Nat.le_of_succ_le_succ)]

namespace Schema

variable {Field : Type} (schema : Schema Field)

/-- A record of the first `count` fields, with these values.  An array has the values in declared
order, and behind a full record whatever else; a table has them under their keys, in any order and
among keys that mean nothing. -/
inductive Notates (count : ℕ) (values : Field → Value) : Value → Prop
  | array {extra : List Value} (hextra : extra = [] ∨ schema.declared.length ≤ count) :
      Notates count values (.array ((schema.declared.take count).map values ++ extra))
  | table {entries unknown : Table} (hentries : entries.Perm
        ((schema.declared.take count).map (fun field => (schema.key field, values field)) ++
          unknown)) (hunknown : ∀ entry ∈ unknown, ∀ field, schema.key field ≠ entry.1) :
      Notates count values (.table entries)

namespace Notates

variable {schema} {count : ℕ} {values : Field → Value} {record : Value}

theorem isRecord (h : schema.Notates count values record) : IsRecord record := by
  cases h with
  | array => exact .array _
  | table => exact .table _

/-- Both notations give the same fields. -/
theorem fields_perm (h : schema.Notates count values record) : (schema.fields record).Perm
    ((schema.declared.take count).map fun field => (field, values field)) := by
  cases h with
  | array hextra => rw [fields, zip_take_map values hextra]
  | @table entries unknown hentries hunknown =>
    have hunread : ∀ entry ∈ unknown, (schema.ofKey? entry.1).map (·, entry.2) = none := by
      intro entry hmem
      rw [Option.map_eq_none_iff, Option.eq_none_iff_forall_ne_some]
      exact fun field hfield => hunknown entry hmem field (schema.ofKey?_eq_some_iff.1 hfield)
    have hread (field : Field) :
        (schema.ofKey? (schema.key field)).map (·, values field) = some (field, values field) := by
      rw [schema.ofKey?_eq_some_iff.2 rfl, Option.map_some]
    refine (hentries.filterMap _).trans (.of_eq ?_)
    rw [List.filterMap_append, List.filterMap_map, List.filterMap_eq_nil_iff.2 hunread,
      List.append_nil, ← List.filterMap_eq_map]
    exact List.filterMap_congr fun field _ => hread field

theorem isClear (h : schema.Notates count values record) : schema.IsClear record := by
  have hkeys := h.fields_perm.map (·.1)
  rw [List.map_map, Function.comp_def, List.map_id'] at hkeys
  exact hkeys.nodup_iff.2 (schema.nodup_declared.sublist (List.take_sublist _ _))

theorem mem_fields_iff (h : schema.Notates count values record) {field : Field} {value : Value} :
    (field, value) ∈ schema.fields record ↔
      field ∈ schema.declared.take count ∧ value = values field := by
  rw [h.fields_perm.mem_iff, List.mem_map]
  grind

theorem given?_eq [DecidableEq Field] (h : schema.Notates count values record) (field : Field) :
    schema.given? record field =
      if field ∈ schema.declared.take count then some (values field) else none := by
  refine Option.ext fun value => ?_
  rw [← schema.mem_fields_iff h.isClear, h.mem_fields_iff]
  split <;> simp_all [eq_comm]

end Notates

end Schema

theorem Numeric.unique {value : Value} {x y : Float} (hx : Numeric value x)
    (hy : Numeric value y) : x = y := by
  cases hx with
  | integer hx =>
    cases hy with
    | integer hy => exact hx.unique hy
  | float => cases hy; rfl

theorem IsRecord.isMoment_eq_false {record : Value} (h : IsRecord record) :
    record.isMoment = false := by
  cases h <;> rfl

/-- Where what is given means the same, so does what is held for it. -/
theorem eq_of_rel {α : Type} {alike : Value → Value → Prop} {holds : Value → α → Prop}
    (hunique : ∀ {value other x y}, alike value other → holds value x → holds other y → x = y)
    {given other : Option Value} {x y : Option α} (hgiven : Option.Rel alike given other)
    (hx : Option.Rel holds given x) (hy : Option.Rel holds other y) : x = y := by
  cases hgiven with
  | none =>
    cases hx
    cases hy
    rfl
  | some hvalue =>
    cases hx with
    | some hx =>
      cases hy with
      | some hy => rw [hunique hvalue hx hy]

namespace SoftLimits

/-- Records of the same soft limits, each in either notation. -/
def AreAlike (record other : Value) : Prop :=
  ∃ values : SoftField → Value, (∀ field, IsNumber (values field)) ∧
    SoftField.schema.Notates SoftField.schema.declared.length values record ∧
    SoftField.schema.Notates SoftField.schema.declared.length values other

theorem AreAlike.symm {record other : Value} (h : AreAlike record other) :
    AreAlike other record := by
  obtain ⟨values, hvalues, hrecord, hother⟩ := h
  exact ⟨values, hvalues, hother, hrecord⟩

section
variable {values : SoftField → Value} {record : Value}
  (h : SoftField.schema.Notates SoftField.schema.declared.length values record)
include h

theorem given?_of_notates (field : SoftField) :
    SoftField.schema.given? record field = some (values field) := by
  rw [h.given?_eq, List.take_length, if_pos (SoftField.schema.complete field)]

variable (hvalues : ∀ field, IsNumber (values field))
include hvalues

theorem isSoftRecord_of_notates : IsSoftRecord record := by
  have hgiven := given?_of_notates h
  cases h with
  | table => exact .table fun field => ⟨values field, hgiven field, hvalues field⟩
  | array =>
    refine .array (by simp [SoftField.schema]) fun item hitem => ?_
    rw [List.take_left' (by simp [SoftField.schema])] at hitem
    obtain ⟨field, -, rfl⟩ := List.mem_map.1 hitem
    exact hvalues field

theorem exists_ofValue_of_notates :
    ∃ soft : SoftLimits, ofValue record = .ok soft ∧ soft.Holds record := by
  have hmoment := h.isRecord.isMoment_eq_false
  have hdemands := (forall_demands_iff h.isClear).2 (isSoftRecord_of_notates h hvalues)
  obtain ⟨soft, hsoft⟩ := (asks_ofValue h.isClear hmoment).exists_ok_iff.2 hdemands
  exact ⟨soft, hsoft, holds_of_ofValue h.isClear hmoment hsoft⟩

end

theorem eq_of_holds {record other : Value} {soft next : SoftLimits}
    (hgiven : ∀ field, SoftField.schema.given? record field = SoftField.schema.given? other field)
    (hsoft : soft.Holds record) (hnext : next.Holds other) : soft = next := by
  have hget (field : SoftField) : soft.get field = next.get field := by
    obtain ⟨value, hvalue, hx⟩ := hsoft field
    obtain ⟨found, hfound, hy⟩ := hnext field
    obtain rfl : value = found := Option.some.inj (hvalue.symm.trans ((hgiven field).trans hfound))
    exact hx.unique hy
  cases soft
  cases next
  exact (mk.injEq ..).mpr
    ⟨hget .positionGain, hget .velocityGain, hget .minPosition, hget .maxPosition⟩

theorem AreAlike.eq_of_holds {record other : Value} {soft next : SoftLimits}
    (h : AreAlike record other) (hsoft : soft.Holds record) (hnext : next.Holds other) :
    soft = next := by
  obtain ⟨values, -, hrecord, hother⟩ := h
  refine SoftLimits.eq_of_holds (fun field => ?_) hsoft hnext
  rw [given?_of_notates hrecord, given?_of_notates hother]

theorem AreAlike.exists_ofValue {record other : Value} (h : AreAlike record other) :
    ∃ soft : SoftLimits, soft.Holds record ∧ ofValue record = .ok soft ∧
      ofValue other = .ok soft := by
  obtain ⟨values, hvalues, hrecord, hother⟩ := id h
  obtain ⟨soft, hsoft, hholds⟩ := exists_ofValue_of_notates hrecord hvalues
  obtain ⟨next, hnext, hholds'⟩ := exists_ofValue_of_notates hother hvalues
  obtain rfl := h.eq_of_holds hholds hholds'
  exact ⟨soft, hholds, hsoft, hnext⟩

end SoftLimits

/-- Values that a field of a joint can have and that mean the same: equal ones, or records of the
same soft limits. -/
def JointField.Alike : JointField → Value → Value → Prop
  | .soft, value, other => SoftLimits.AreAlike value other
  | field, value, other => field.Takes value ∧ value = other

theorem JointField.Alike.symm {field : JointField} {value other : Value}
    (h : field.Alike value other) : field.Alike other value := by
  cases field with
  | soft => exact SoftLimits.AreAlike.symm h
  | _ => exact ⟨h.2 ▸ h.1, h.2.symm⟩

theorem JointField.Alike.takes {field : JointField} {value other : Value}
    (h : field.Alike value other) : field.Takes value := by
  cases field with
  | soft =>
    obtain ⟨values, hvalues, hrecord, -⟩ := h
    exact SoftLimits.isSoftRecord_of_notates hrecord hvalues
  | _ => exact h.1

namespace JointSettings

/-- Records of the same first fields of a joint, each in either notation. -/
def AreAlike (record other : Value) : Prop :=
  ∃ (count : ℕ) (values others : JointField → Value),
    (∀ field ∈ JointField.declared.take count, field.Alike (values field) (others field)) ∧
    JointField.schema.Notates count values record ∧ JointField.schema.Notates count others other

section
variable {count : ℕ} {values others : JointField → Value} {record : Value}
  (hvalues : ∀ field ∈ JointField.declared.take count, field.Alike (values field) (others field))
  (h : JointField.schema.Notates count values record)
include hvalues h

theorem alike_of_given? {field : JointField} {value : Value}
    (hgiven : JointField.schema.given? record field = some value) :
    field.Alike value (others field) := by
  rw [h.given?_eq] at hgiven
  split at hgiven
  next hmem =>
    cases hgiven
    exact hvalues field hmem
  next => cases hgiven

theorem exists_ofValue_of_notates :
    ∃ settings, ofValue record = .ok settings ∧ settings.Holds record := by
  have hclear : IsClear record := by
    refine ⟨h.isClear, fun soft hsoft => ?_⟩
    obtain ⟨_, _, hnotates, -⟩ := alike_of_given? hvalues h hsoft
    exact hnotates.isClear
  have htimeless : IsTimeless record := by
    refine ⟨h.isRecord.isMoment_eq_false, fun soft hsoft => ?_⟩
    obtain ⟨_, _, hnotates, -⟩ := alike_of_given? hvalues h hsoft
    exact hnotates.isRecord.isMoment_eq_false
  have hdemands : ∀ demand ∈ demands record, demand.IsMet := by
    rw [demands, List.forall_mem_cons, List.forall_mem_flatMap]
    refine ⟨h.isRecord, ?_⟩
    rintro ⟨field, value⟩ hmem
    have hgiven := (JointField.schema.mem_fields_iff h.isClear).1 hmem
    exact (JointField.forall_demands_iff (hclear.of_mem_fields hmem)).2
      (alike_of_given? hvalues h hgiven).takes
  obtain ⟨settings, hsettings⟩ := (asks_ofValue hclear htimeless).exists_ok_iff.2 hdemands
  exact ⟨settings, hsettings, holds_of_ofValue hclear htimeless hsettings⟩

end

/-- Settings that hold the same fields are the same. -/
theorem eq_of_holds {record other : Value} {settings next : JointSettings}
    (hgiven : ∀ field, Option.Rel field.Alike (JointField.schema.given? record field)
      (JointField.schema.given? other field))
    (hsettings : settings.Holds record) (hnext : next.Holds other) : settings = next := by
  have hnumber {given found : Option Value} {x y : Option Float}
      (hsame : Option.Rel (fun value found => IsNumber value ∧ value = found) given found)
      (hx : Option.Rel Numeric given x) (hy : Option.Rel Numeric found y) : x = y := by
    refine eq_of_rel (fun hvalue hx hy => ?_) hsame hx hy
    obtain ⟨-, rfl⟩ := hvalue
    exact hx.unique hy
  have hmagnitude (limit : Magnitude) : settings.magnitude limit = next.magnitude limit :=
    hnumber (hgiven (.magnitude limit)) (hsettings (.magnitude limit)) (hnext (.magnitude limit))
  have hwraps : settings.wraps = next.wraps := by
    have hsame := hgiven .wraps
    have hthis := hsettings .wraps
    have hthat := hnext .wraps
    rw [Shows] at hthis hthat
    generalize JointField.schema.given? record .wraps = given at hsame hthis
    generalize JointField.schema.given? other .wraps = found at hsame hthat
    cases hsame with
    | none => exact hthis.trans hthat.symm
    | some hvalue =>
      obtain ⟨-, rfl⟩ := hvalue
      exact Value.boolean.inj (hthis.symm.trans hthat)
  cases settings
  cases next
  refine (mk.injEq ..).mpr ⟨?_, ?_, hmagnitude .velocity, hmagnitude .acceleration,
    hmagnitude .jerk, hmagnitude .effort, hwraps, ?_⟩
  · exact hnumber (hgiven .minPosition) (hsettings .minPosition) (hnext .minPosition)
  · exact hnumber (hgiven .maxPosition) (hsettings .maxPosition) (hnext .maxPosition)
  · exact eq_of_rel (fun halike hx hy => halike.eq_of_holds hx hy) (hgiven .soft) (hsettings .soft)
      (hnext .soft)

theorem AreAlike.exists_ofValue {record other : Value} (h : AreAlike record other) :
    ∃ settings, settings.Holds record ∧ ofValue record = .ok settings ∧
      ofValue other = .ok settings := by
  obtain ⟨count, values, others, halike, hrecord, hother⟩ := h
  obtain ⟨settings, hsettings, hholds⟩ := exists_ofValue_of_notates halike hrecord
  obtain ⟨next, hnext, hholds'⟩ :=
    exists_ofValue_of_notates (fun field hmem => (halike field hmem).symm) hother
  have hgiven (field : JointField) : Option.Rel field.Alike
      (JointField.schema.given? record field) (JointField.schema.given? other field) := by
    rw [hrecord.given?_eq, hother.given?_eq]
    split
    next hmem => exact .some (halike field hmem)
    next => exact .none
  obtain rfl := eq_of_holds hgiven hholds hholds'
  exact ⟨settings, hholds, hsettings, hnext⟩

end JointSettings

namespace Config

/-- Documents with the same joints, where the record of each is in either notation. -/
def AreAlike (document other : Table) : Prop :=
  ∃ entries others, document.lookup jointsKey = some (.table entries) ∧
    other.lookup jointsKey = some (.table others) ∧
    List.Forall₂ (fun entry other => entry.1 = other.1 ∧ JointSettings.AreAlike entry.2 other.2)
      entries others

theorem addJoint_alike {entry other : String × Value} (hname : entry.1 = other.1)
    (h : JointSettings.AreAlike entry.2 other.2) (config : Config) :
    config.addJoint entry.1 entry.2 = config.addJoint other.1 other.2 := by
  obtain ⟨settings, -, hrecord, hother⟩ := h.exists_ofValue
  rw [addJoint, addJoint, hname, hrecord, hother]

theorem addJoints_alike {entries others : Table}
    (h : List.Forall₂ (fun entry other => entry.1 = other.1 ∧
      JointSettings.AreAlike entry.2 other.2) entries others) (config : Config) :
    config.addJoints entries = config.addJoints others := by
  induction h generalizing config with
  | nil => rfl
  | @cons entry other entries others hjoint _ ih =>
    rw [addJoints, addJoints, List.foldlM_cons, List.foldlM_cons]
    change config.addJoint entry.1 entry.2 >>= _ = config.addJoint other.1 other.2 >>= _
    rw [addJoint_alike hjoint.1 hjoint.2]
    exact bind_congr ih

theorem AreAlike.ofTable_eq {document other : Table} (h : AreAlike document other) :
    ofTable document = ofTable other := by
  obtain ⟨entries, others, hentries, hothers, hjoints⟩ := h
  rw [ofTable, ofTable, hentries, hothers]
  exact addJoints_alike hjoints empty

end Config

/-- Soft limits, joints and whole documents are read the same in whichever notation each record is,
and are then as the records have them.  So the limits and the check answer the same. -/
theorem read_alike :
    (∀ record other, SoftLimits.AreAlike record other → ∃ soft : SoftLimits, soft.Holds record ∧
      SoftLimits.ofValue record = .ok soft ∧ SoftLimits.ofValue other = .ok soft) ∧
    (∀ record other, JointSettings.AreAlike record other → ∃ settings : JointSettings,
      settings.Holds record ∧ JointSettings.ofValue record = .ok settings ∧
        JointSettings.ofValue other = .ok settings) ∧
    ∀ document other, Config.AreAlike document other →
      Config.ofTable document = Config.ofTable other ∧
        ∀ config next, Config.ofTable document = .ok config → Config.ofTable other = .ok next →
          next.check = config.check ∧ ∀ name, next.hardLimits name = config.hardLimits name ∧
            next.softLimits name = config.softLimits name := by
  refine ⟨?_, ?_, ?_⟩
  · intro record other h
    exact h.exists_ofValue
  · intro record other h
    exact h.exists_ofValue
  · intro document other h
    have heq := h.ofTable_eq
    refine ⟨heq, fun config next hconfig hnext => ?_⟩
    obtain rfl := Except.ok.inj (hconfig.symm.trans (heq.trans hnext))
    exact ⟨rfl, fun name => ⟨rfl, rfl⟩⟩

def armNumbers : SoftField → Value
  | .positionGain => .integer 10
  | .velocityGain => .float 1.0
  | .minPosition => .float (-0.5)
  | .maxPosition => .float 0.5

/-- The numbers in their places, with something behind them. -/
def armSoftItems : Value := .array (SoftField.declared.map armNumbers ++ [.boolean true])

/-- The numbers under their keys in the opposite order, behind a key that means nothing. -/
def armSoftEntries : Value :=
  .table (SoftField.declared.map (fun field => (SoftField.key field, armNumbers field)) ++
    [("colour", Value.string "red")]).reverse

def armValues (soft : Value) : JointField → Value
  | .minPosition => .float (-1.0)
  | .maxPosition => .integer 1
  | .magnitude _ => .float 2.0
  | .wraps => .boolean false
  | .soft => soft

def armItems : Value :=
  .array (JointField.declared.map (armValues armSoftEntries) ++ [.string "end"])

def armEntries : Value :=
  .table (JointField.declared.map
    (fun field => (JointField.key field, armValues armSoftItems field)) ++
      [("colour", Value.integer 7)]).reverse

def armDocument (record : Value) : Table := [(Config.jointsKey, .table [("arm", record)])]

theorem areAlike_armSoft : SoftLimits.AreAlike armSoftEntries armSoftItems := by
  refine ⟨armNumbers, fun field => ?_, .table (List.reverse_perm _) ?_,
    .array (.inr (Nat.le_refl _))⟩
  · cases field with
    | positionGain => exact isNumber_integer _
    | _ => exact ⟨_, .float _⟩
  · intro entry hentry field
    obtain rfl := List.mem_singleton.1 hentry
    cases field <;> decide

theorem areAlike_arm : JointSettings.AreAlike armItems armEntries := by
  refine ⟨8, armValues armSoftEntries, armValues armSoftItems, fun field _ => ?_,
    .array (.inr (Nat.le_refl _)), .table (List.reverse_perm _) ?_⟩
  · cases field with
    | soft => exact areAlike_armSoft
    | maxPosition => exact ⟨isNumber_integer _, rfl⟩
    | wraps => exact ⟨⟨_, rfl⟩, rfl⟩
    | _ => exact ⟨⟨_, .float _⟩, rfl⟩
  · intro entry hentry field
    obtain rfl := List.mem_singleton.1 hentry
    rcases field with _ | _ | limit | _ | _
    case magnitude => cases limit <;> decide
    all_goals decide

theorem areAlike_armDocument :
    Config.AreAlike (armDocument armItems) (armDocument armEntries) :=
  ⟨_, _, rfl, rfl, .cons ⟨rfl, areAlike_arm⟩ .nil⟩

/-- The soft limits are a table in the array, and an array in the table. -/
theorem read_alike_arm :
    SoftLimits.AreAlike armSoftEntries armSoftItems ∧ JointSettings.AreAlike armItems armEntries ∧
      Config.AreAlike (armDocument armItems) (armDocument armEntries) ∧
      (∃ soft : SoftLimits, soft.Holds armSoftEntries ∧
        SoftLimits.ofValue armSoftEntries = .ok soft ∧ SoftLimits.ofValue armSoftItems = .ok soft) ∧
      (∃ settings : JointSettings, settings.Holds armItems ∧
        JointSettings.ofValue armItems = .ok settings ∧
        JointSettings.ofValue armEntries = .ok settings) ∧
      Config.ofTable (armDocument armItems) = Config.ofTable (armDocument armEntries) ∧
      (Config.ofTable (armDocument armItems)).toOption.map Config.names = some ["arm"] := by
  obtain ⟨hsoft, hsettings, hconfig⟩ := read_alike
  exact ⟨areAlike_armSoft, areAlike_arm, areAlike_armDocument, hsoft _ _ areAlike_armSoft,
    hsettings _ _ areAlike_arm, (hconfig _ _ areAlike_armDocument).1, by decide +kernel⟩

end JointGuard
