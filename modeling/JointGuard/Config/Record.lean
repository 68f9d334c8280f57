import JointGuard.Config.Basic
import JointGuard.Text.Quoted
import JointGuard.Toml.Value

/-! # Configurations as TOML records

The records of a limits file are read from the values of a document.  Each record can be written in
two ways: as a table with the fields under their keys in any order, among keys that mean nothing, or
as an array with the fields in their declared order, where items beyond the last field mean nothing.
All fields of a joint are optional, and all fields of soft limits are needed.  An integer can stand
for a number.  Entries are read in document order, and the first fault is reported. -/

namespace JointGuard
open Text Decimal Toml

/-- What a place in a record asks for. -/
inductive Expected where
  | number
  | truth
  | softRecord
  | jointRecord
  | jointMap
  deriving DecidableEq

def Expected.text : Expected → String
  | .number => "f64"
  | .truth => "a boolean"
  | .softRecord => "struct SoftJointLimits"
  | .jointRecord => "struct JointLimitsConfig"
  | .jointMap => "a map"

/-- The fields of soft limits. -/
inductive SoftField where
  | positionGain
  | velocityGain
  | minPosition
  | maxPosition
  deriving DecidableEq

namespace SoftField

def declared : List SoftField := [.positionGain, .velocityGain, .minPosition, .maxPosition]

def key : SoftField → String
  | .positionGain => "k_position"
  | .velocityGain => "k_velocity"
  | .minPosition => "min_position"
  | .maxPosition => "max_position"

def ofKey? (key : String) : Option SoftField := declared.find? (·.key = key)

end SoftField

/-- The fields of a joint. -/
inductive JointField where
  | minPosition
  | maxPosition
  | magnitude (limit : Magnitude)
  | wraps
  | soft
  deriving DecidableEq

namespace JointField

def declared : List JointField :=
  [.minPosition, .maxPosition] ++ Magnitude.all.map .magnitude ++ [.wraps, .soft]

def key : JointField → String
  | .minPosition => "min_position"
  | .maxPosition => "max_position"
  | .magnitude limit => limit.key
  | .wraps => "angle_wraparound"
  | .soft => "soft_limits"

def ofKey? (key : String) : Option JointField := declared.find? (·.key = key)

end JointField

/-- A document that holds no configuration. -/
inductive RecordFault where
  | wrongType (found : Value) (expected : Expected)
  | longName (bytes : Nat)
  | tooManyJoints (count : Nat)
  | missingField (field : SoftField)
  | shortSoftRecord (items : Nat)

namespace RecordFault

/-- Numbers found in the wrong place: a whole number shows that it is no integer. -/
def numbers : Layout where
  nan := "NaN"
  infinity := "inf"
  wholeEnding := ".0"

def natText (n : Nat) : String := String.ofList (Nat.toDigits 10 n)

def intText (n : Int) : String :=
  if n < 0 then "-" ++ natText n.natAbs else natText n.natAbs

/-- How a misplaced value is described.  A date or time shows itself as a table. -/
def describe : Value → String
  | .string text => "string " ++ quoted text
  | .integer n => "integer `" ++ intText n.toInt ++ "`"
  | .float x => "floating point `" ++ numbers.text x ++ "`"
  | .boolean b => "boolean `" ++ (if b then "true" else "false") ++ "`"
  | .array _ => "sequence"
  | .moment _ => "map"
  | .table _ => "map"

def message : RecordFault → String
  | .wrongType found expected =>
    "invalid type: " ++ describe found ++ ", expected " ++ expected.text
  | .longName bytes =>
    "invalid length " ++ natText bytes ++ ", expected a string no more than 32 bytes long"
  | .tooManyJoints count =>
    "invalid length " ++ natText count ++ ", expected " ++ Expected.jointMap.text
  | .missingField field => "missing field `" ++ field.key ++ "`"
  | .shortSoftRecord items =>
    "invalid length " ++ natText items ++ ", expected " ++ Expected.softRecord.text ++
      " with 4 elements"

end RecordFault

/-- The key under which a date or time stands in the table that it shows itself as. -/
def momentKey : String := "moment"

/-- The two ways to write a record. -/
inductive RecordForm where
  | keyed (entries : Table)
  | positional (items : List Value)

/-- The way in which a value is a record, if it is one. -/
def RecordForm.ofValue? : Value → Option RecordForm
  | .table entries => some (.keyed entries)
  | .moment moment => some (.keyed [(momentKey, .string moment.text)])
  | .array items => some (.positional items)
  | _ => none

/-- Reads a number; an integer is rounded to the nearest one. -/
def readNumber : Value → Except RecordFault Float
  | .integer n => .ok (Float.ofInt n.toInt)
  | .float x => .ok x
  | found => .error (.wrongType found .number)

def readTruth : Value → Except RecordFault Bool
  | .boolean b => .ok b
  | found => .error (.wrongType found .truth)

/-- Soft limits of which some fields are still missing. -/
structure SoftDraft where
  positionGain : Option Float := none
  velocityGain : Option Float := none
  minPosition : Option Float := none
  maxPosition : Option Float := none

namespace SoftDraft

def set (draft : SoftDraft) (field : SoftField) (x : Float) : SoftDraft :=
  match field with
  | .positionGain => { draft with positionGain := some x }
  | .velocityGain => { draft with velocityGain := some x }
  | .minPosition => { draft with minPosition := some x }
  | .maxPosition => { draft with maxPosition := some x }

def read (draft : SoftDraft) (field : SoftField) (value : Value) : Except RecordFault SoftDraft :=
  (readNumber value).map (draft.set field)

def need (field : SoftField) : Option Float → Except RecordFault Float
  | some x => .ok x
  | none => .error (.missingField field)

/-- Reports the first missing field in declared order. -/
def complete (draft : SoftDraft) : Except RecordFault SoftLimits := do
  let positionGain ← need .positionGain draft.positionGain
  let velocityGain ← need .velocityGain draft.velocityGain
  let minPosition ← need .minPosition draft.minPosition
  let maxPosition ← need .maxPosition draft.maxPosition
  return { positionGain, velocityGain, minPosition, maxPosition }

end SoftDraft

namespace SoftLimits

def ofTable (entries : Table) : Except RecordFault SoftLimits := do
  let draft ← entries.foldlM (fun (draft : SoftDraft) (key, value) =>
    match SoftField.ofKey? key with
    | none => .ok draft
    | some field => draft.read field value) {}
  draft.complete

def ofItems (items : List Value) : Except RecordFault SoftLimits := do
  let draft ← (SoftField.declared.zip items).foldlM (fun (draft : SoftDraft) (field, value) =>
    draft.read field value) {}
  if items.length < SoftField.declared.length then .error (.shortSoftRecord items.length)
  else draft.complete

def ofValue (value : Value) : Except RecordFault SoftLimits :=
  match RecordForm.ofValue? value with
  | some (.keyed entries) => ofTable entries
  | some (.positional items) => ofItems items
  | none => .error (.wrongType value .softRecord)

end SoftLimits

namespace JointSettings

def setMagnitude (settings : JointSettings) (limit : Magnitude) (x : Float) : JointSettings :=
  match limit with
  | .velocity => { settings with maxVelocity := some x }
  | .acceleration => { settings with maxAcceleration := some x }
  | .jerk => { settings with maxJerk := some x }
  | .effort => { settings with maxEffort := some x }

/-- Reads one field. -/
def read (settings : JointSettings) (field : JointField) (value : Value) :
    Except RecordFault JointSettings :=
  match field with
  | .minPosition => (readNumber value).map fun x => { settings with minPosition := some x }
  | .maxPosition => (readNumber value).map fun x => { settings with maxPosition := some x }
  | .magnitude limit => (readNumber value).map (settings.setMagnitude limit)
  | .wraps => (readTruth value).map fun wraps => { settings with wraps }
  | .soft => (SoftLimits.ofValue value).map fun soft => { settings with soft := some soft }

def ofTable (entries : Table) : Except RecordFault JointSettings :=
  entries.foldlM (fun (settings : JointSettings) (key, value) =>
    match JointField.ofKey? key with
    | none => .ok settings
    | some field => settings.read field value) {}

def ofItems (items : List Value) : Except RecordFault JointSettings :=
  (JointField.declared.zip items).foldlM (fun (settings : JointSettings) (field, value) =>
    settings.read field value) {}

def ofValue (value : Value) : Except RecordFault JointSettings :=
  match RecordForm.ofValue? value with
  | some (.keyed entries) => ofTable entries
  | some (.positional items) => ofItems items
  | none => .error (.wrongType value .jointRecord)

end JointSettings

namespace Config

def jointsKey : String := "joints"

/-- Reads the name of a joint, then its settings, and then makes room for it. -/
def addJoint (config : Config) (name : String) (value : Value) : Except RecordFault Config :=
  match BoundedText.ofString? name with
  | none => .error (.longName name.utf8ByteSize)
  | some joint => do
    let settings ← JointSettings.ofValue value
    match config.insert? joint settings with
    | none => .error (.tooManyJoints (maxJoints + 1))
    | some config => .ok config

def ofValue (value : Value) : Except RecordFault Config :=
  match RecordForm.ofValue? value with
  | some (.keyed entries) =>
    entries.foldlM (fun (config : Config) (name, value) => config.addJoint name value) empty
  | _ => .error (.wrongType value .jointMap)

/-- Reads the configuration that a document holds; without a table of joints it is empty. -/
def ofTable (document : Table) : Except RecordFault Config :=
  match document.lookup jointsKey with
  | none => .ok empty
  | some value => ofValue value

end Config

end JointGuard
