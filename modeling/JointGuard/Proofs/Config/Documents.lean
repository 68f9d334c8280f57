import JointGuard.Proofs.Config.Records
import JointGuard.Proofs.Joint.Rosters

/-! # Reading documents

A document that a text describes is read as a configuration if it is in the grammar, and then the
configuration has the joints of the document, in the same order and with the same fields.
Otherwise the first demand that is not met is reported (`ofTable_outcome`). -/

namespace JointGuard
open Text Toml

namespace Config

variable {config next : Config} {name : String} {record : Value}

theorem insert?_of_new {joint : JointName} (hnew : joint ∉ config.joints.joints)
    (settings : JointSettings) : config.insert? joint settings =
      if hroom : config.joints.size < maxJoints then
        some ⟨config.joints.push joint settings hnew hroom⟩
      else none := by
  rw [insert?, dif_pos hnew]

theorem asks_addJoint (hnew : name ∉ config.names) (hrecord : record.IsDistinct)
    (htimeless : JointSettings.IsTimeless record) :
    Asks (jointDemands name record config.joints.size) (config.addJoint name record) := by
  rw [addJoint]
  split
  next hlong => exact .fail _ (Nat.not_le.2 (BoundedText.ofString?_eq_none_iff.1 hlong))
  next joint hjoint =>
    obtain rfl := BoundedText.ofString?_eq_some_iff.1 hjoint
    have hjoints := mt Roster.text_mem_names_iff.2 hnew
    have hclear := JointSettings.isClear_of_isDistinct hrecord
    have hsettings := JointSettings.asks_ofValue hclear htimeless
    refine .pass joint.fits (hsettings.bind _ fun settings _ => ?_)
    rw [insert?_of_new hjoints]
    by_cases hroom : config.joints.size < maxJoints
    · rw [dif_pos hroom]
      exact .pass hroom (.done _)
    · rw [dif_neg hroom]
      exact .fail _ hroom

theorem entries_of_addJoint (hnew : name ∉ config.names) (hrecord : record.IsDistinct)
    (htimeless : JointSettings.IsTimeless record) (h : config.addJoint name record = .ok next) :
    ∃ joint settings, next.joints.entries = config.joints.entries ++ [(joint, settings)] ∧
      joint.text = name ∧ settings.Holds record := by
  rw [addJoint] at h
  split at h
  next => cases h
  next joint hjoint =>
    obtain rfl := BoundedText.ofString?_eq_some_iff.1 hjoint
    obtain ⟨settings, hsettings, h⟩ := exists_ok_of_bind h
    have hclear := JointSettings.isClear_of_isDistinct hrecord
    rw [insert?_of_new (mt Roster.text_mem_names_iff.2 hnew)] at h
    by_cases hroom : config.joints.size < maxJoints
    · rw [dif_pos hroom] at h
      cases h
      exact ⟨joint, settings, rfl, rfl,
        JointSettings.holds_of_ofValue hclear htimeless hsettings⟩
    · rw [dif_neg hroom] at h
      cases h

/-- Adds the joints of a document. -/
def addJoints (config : Config) (entries : Table) : Except RecordFault Config :=
  entries.foldlM (fun config (name, record) => config.addJoint name record) config

variable {entries : Table}

/-- The joints of a document that are still to be read: none is known yet, and they have the form
that reading needs. -/
structure Awaits (config : Config) (entries : Table) : Prop where
  keys : (config.names ++ entries.map (·.1)).Nodup
  records : ∀ entry ∈ entries, entry.2.IsDistinct ∧ JointSettings.IsTimeless entry.2

namespace Awaits

variable {entry : String × Value}

theorem head (h : config.Awaits (entry :: entries)) :
    entry.1 ∉ config.names ∧ entry.2.IsDistinct ∧ JointSettings.IsTimeless entry.2 := by
  refine ⟨fun hold => ?_, h.records entry List.mem_cons_self⟩
  exact (List.nodup_append.1 h.keys).2.2 entry.1 hold entry.1 (by simp) rfl

/-- Every joint that is added has been awaited as the first. -/
theorem tail (h : config.Awaits (entry :: entries))
    (hnext : config.addJoint entry.1 entry.2 = .ok next) : next.Awaits entries := by
  obtain ⟨hnew, hrecord, htimeless⟩ := h.head
  obtain ⟨joint, settings, hentries, hname, -⟩ :=
    entries_of_addJoint hnew hrecord htimeless hnext
  have hnames : next.names = config.names ++ [entry.1] := by
    simp [names, Roster.names, hentries, hname]
  refine ⟨?_, fun other hother => h.records other (List.mem_cons_of_mem _ hother)⟩
  rw [hnames, List.append_assoc]
  exact h.keys

end Awaits

theorem asks_addJoints (h : config.Awaits entries) :
    Asks ((entries.zipIdx config.joints.size).flatMap fun ((name, record), index) =>
      jointDemands name record index) (config.addJoints entries) := by
  induction entries generalizing config with
  | nil => exact .done config
  | cons entry entries ih =>
    obtain ⟨hnew, hrecord, htimeless⟩ := h.head
    rw [List.zipIdx_cons, List.flatMap_cons, addJoints, List.foldlM_cons]
    refine (asks_addJoint hnew hrecord htimeless).bind _ fun next hnext => ?_
    obtain ⟨joint, settings, hentries, -⟩ := entries_of_addJoint hnew hrecord htimeless hnext
    have hsize : next.joints.size = config.joints.size + 1 := by
      simp [Roster.size, hentries]
    rw [← hsize]
    exact ih (h.tail hnext)

theorem entries_of_addJoints (h : config.Awaits entries)
    (hnext : config.addJoints entries = .ok next) :
    ∃ added, next.joints.entries = config.joints.entries ++ added ∧
      List.Forall₂ (fun (name, record) (joint, settings) =>
        BoundedText.text joint = name ∧ JointSettings.Holds settings record) entries added := by
  induction entries generalizing config with
  | nil =>
    cases hnext
    exact ⟨[], by simp, .nil⟩
  | cons entry entries ih =>
    obtain ⟨hnew, hrecord, htimeless⟩ := h.head
    rw [addJoints, List.foldlM_cons] at hnext
    obtain ⟨middle, hmiddle, hnext⟩ := exists_ok_of_bind hnext
    obtain ⟨joint, settings, hentries, hholds⟩ :=
      entries_of_addJoint hnew hrecord htimeless hmiddle
    obtain ⟨added, hadded, hall⟩ := ih (h.tail hmiddle) hnext
    exact ⟨(joint, settings) :: added, by simp [hadded, hentries], .cons hholds hall⟩

/-- Nowhere in the document does a date or time stand for the joints, for a joint or for its soft
limits. -/
structure IsTimeless (document : Table) : Prop where
  joints : ∀ joints ∈ document.lookup jointsKey, joints.isMoment = false
  records : ∀ entry ∈ jointEntries document, JointSettings.IsTimeless entry.2

instance (record : Value) : Decidable (JointSettings.IsTimeless record) :=
  inferInstanceAs (Decidable (_ ∧ _))

instance (document : Table) : Decidable (IsTimeless document) :=
  decidable_of_iff
    ((∀ joints ∈ document.lookup jointsKey, joints.isMoment = false) ∧
      ∀ entry ∈ jointEntries document, JointSettings.IsTimeless entry.2)
    ⟨fun ⟨hjoints, hrecords⟩ => ⟨hjoints, hrecords⟩, fun h => ⟨h.joints, h.records⟩⟩

variable {document : Table}

theorem IsTimeless.awaits (htimeless : IsTimeless document)
    (hdocument : (Value.table document).IsDistinct) : empty.Awaits (jointEntries document) := by
  have hentries := isDistinct_jointEntries hdocument
  refine ⟨?_, fun entry hentry => ⟨hentries.of_mem hentry, htimeless.records entry hentry⟩⟩
  cases hentries with
  | table hkeys _ => exact hkeys

theorem asks_ofTable (hdocument : (Value.table document).IsDistinct)
    (htimeless : IsTimeless document) : Asks (demands document) (ofTable document) := by
  have hall := asks_addJoints (htimeless.awaits hdocument)
  rw [ofTable, demands]
  cases hjoints : document.lookup jointsKey with
  | none => exact .done empty
  | some joints =>
    have hmoment := htimeless.joints joints hjoints
    cases joints with
    | table entries =>
      simp only [jointEntries, hjoints] at hall ⊢
      exact .pass ⟨entries, rfl⟩ hall
    | moment => cases hmoment
    | _ => exact .fail _ (by rintro ⟨entries, ⟨⟩⟩)

theorem holds_of_ofTable (hdocument : (Value.table document).IsDistinct)
    (htimeless : IsTimeless document) (h : ofTable document = .ok config) :
    config.Holds document := by
  have hawaits := htimeless.awaits hdocument
  rw [ofTable] at h
  rw [Holds]
  cases hjoints : document.lookup jointsKey with
  | none =>
    rw [hjoints] at h
    cases h
    simp only [jointEntries, hjoints]
    exact .nil
  | some joints =>
    have hmoment := htimeless.joints joints hjoints
    rw [hjoints] at h
    cases joints with
    | table entries =>
      simp only [jointEntries, hjoints] at hawaits ⊢
      obtain ⟨added, hadded, hall⟩ := entries_of_addJoints hawaits h
      rw [hadded]
      exact hall
    | moment => cases hmoment
    | _ => cases h

end Config

/-- Reading what a text describes succeeds if it is in the grammar, and then the configuration has
the joints of the document with their fields.  Otherwise the first demand that is not met is
reported. -/
theorem ofTable_outcome {text : String} {document : Table}
    (hparse : Toml.parse? text = some document) (htimeless : Config.IsTimeless document) :
    ((∃ config, Config.ofTable document = .ok config) ↔ IsConfigDocument document) ∧
      (∀ config, Config.ofTable document = .ok config → config.Holds document) ∧
      ∀ fault, Config.ofTable document = .error fault ↔ ∃ demand,
        IsFirst (fun demand => ¬demand.IsMet) (Config.demands document) demand ∧
          fault = demand.fault := by
  have hdocument := isDistinct_of_parse? hparse
  have hasks := Config.asks_ofTable hdocument htimeless
  exact ⟨hasks.exists_ok_iff.trans (Config.forall_demands_iff hdocument),
    fun config => Config.holds_of_ofTable hdocument htimeless, fun fault => hasks.eq_error_iff⟩

/-- One joint is a table, with a key that means nothing and an integer for a number; the other is an
array that ends early. -/
def twoJoints : String :=
  "[joints.shoulder]\nmax_velocity = 2\ncolour = 7\nsoft_limits = [10.0, 1, -0.5, 0.5, true]\n" ++
    "[joints]\nelbow = [-1, 1.5]\n"

theorem ofTable_twoJoints : ∃ document config, Toml.parse? twoJoints = some document ∧
    Config.IsTimeless document ∧ IsConfigDocument document ∧
    Config.ofTable document = .ok config ∧ config.Holds document ∧
    config.names = ["shoulder", "elbow"] := by
  have hparse : (Toml.parse? twoJoints).isSome := by decide +kernel
  have htimeless : ∀ document ∈ Toml.parse? twoJoints, Config.IsTimeless document := by
    decide +kernel
  have hnames : ∀ document ∈ Toml.parse? twoJoints,
      (Config.ofTable document).toOption.map Config.names = some ["shoulder", "elbow"] := by
    decide +kernel
  obtain ⟨document, hdocument⟩ := Option.isSome_iff_exists.1 hparse
  obtain ⟨haccepted, hholds, -⟩ := ofTable_outcome hdocument (htimeless document hdocument)
  have hread := hnames document hdocument
  cases hconfig : Config.ofTable document with
  | error fault => simp [hconfig, Except.toOption] at hread
  | ok config =>
    rw [hconfig] at hread
    exact ⟨document, config, hdocument, htimeless document hdocument,
      haccepted.1 ⟨config, hconfig⟩, hconfig, hholds config hconfig, Option.some.inj hread⟩

end JointGuard
