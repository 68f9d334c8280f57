import JointGuard.Config.Reading
import JointGuard.Proofs.Config.Checking
import JointGuard.Proofs.Config.Documents

/-! # The stages of reading a text

A text is a document or not, the document has a configuration or not, and the configuration is free
of faults or not.  What is reported is the first stage that fails, so that no fault in a joint hides
a record that cannot be read (`ofText_staged`).  What passes all stages has every invariant that
enforcement relies on. -/

namespace JointGuard
open Text Toml

namespace Text.BoundedText

variable {limit : Nat}

/-- The whole message or, if that is too long, nothing. -/
def Tells (notice : BoundedText limit) (message : String) : Prop :=
  notice.text = if message.utf8ByteSize ≤ limit then message else ""

theorem text_orEmpty (message : String) : (orEmpty message : BoundedText limit).text =
    if message.utf8ByteSize ≤ limit then message else "" := by
  rw [orEmpty, ofString?]
  split <;> rfl

theorem tells_iff {notice : BoundedText limit} {message : String} :
    notice.Tells message ↔ notice = orEmpty message := by
  rw [Tells, ← text_orEmpty]
  exact ⟨text_injective, congrArg text⟩

end Text.BoundedText

namespace Config

/-- What a text comes to: the report of the first stage that fails, or the configuration. -/
inductive Reads (complaint : String → String) (text : String) : Except Fault Config → Prop
  | notDocument {notice : Notice} (hparse : Toml.parse? text = none)
      (hnotice : notice.Tells (complaint text)) :
      Reads complaint text (.error (.config (.unreadable notice)))
  | notConfig {document : Table} {fault : RecordFault} {notice : Notice}
      (hparse : Toml.parse? text = some document) (hread : ofTable document = .error fault)
      (hnotice : notice.Tells fault.message) :
      Reads complaint text (.error (.config (.unreadable notice)))
  | faulty {document : Table} {config : Config} {fault : ConfigFault}
      (hparse : Toml.parse? text = some document) (hread : ofTable document = .ok config)
      (hcheck : config.check = .error fault) : Reads complaint text (.error (.config fault))
  | accepted {document : Table} {config : Config} (hparse : Toml.parse? text = some document)
      (hread : ofTable document = .ok config) (hcheck : config.check = .ok ()) :
      Reads complaint text (.ok config)

variable {complaint : String → String} {text : String} {document : Table} {config : Config}

theorem Reads.eq_ofText {result : Except Fault Config} (h : Reads complaint text result) :
    ofText text complaint = result := by
  cases h with
  | notDocument hparse hnotice =>
    rw [BoundedText.tells_iff.1 hnotice]
    simp only [ofText, read, hparse]
    rfl
  | notConfig hparse hread hnotice =>
    rw [BoundedText.tells_iff.1 hnotice]
    simp only [ofText, read, hparse, hread]
    rfl
  | faulty hparse hread hcheck =>
    simp only [ofText, read, hparse, hread, Except.mapError, bind, Except.bind, hcheck]
  | accepted hparse hread hcheck =>
    simp only [ofText, read, hparse, hread, Except.mapError, bind, Except.bind, hcheck]
    rfl

/-- Every text comes to something. -/
theorem exists_reads (complaint : String → String) (text : String) :
    ∃ result, Reads complaint text result := by
  cases hparse : Toml.parse? text with
  | none => exact ⟨_, .notDocument hparse (BoundedText.text_orEmpty _)⟩
  | some document =>
    cases hread : ofTable document with
    | error fault => exact ⟨_, .notConfig hparse hread (BoundedText.text_orEmpty _)⟩
    | ok config =>
      cases hcheck : config.check with
      | error fault => exact ⟨_, .faulty hparse hread hcheck⟩
      | ok _ => exact ⟨_, .accepted hparse hread hcheck⟩

theorem ofText_eq_iff {result : Except Fault Config} :
    ofText text complaint = result ↔ Reads complaint text result := by
  refine ⟨?_, Reads.eq_ofText⟩
  rintro rfl
  obtain ⟨result, h⟩ := exists_reads complaint text
  rwa [h.eq_ofText]

/-- A check never calls a configuration unreadable. -/
theorem check_ne_unreadable (config : Config) (notice : Notice) :
    config.check ≠ .error (.unreadable notice) := by
  intro h
  obtain ⟨joint, settings, rule, -, -, hreports⟩ := check_eq_error_iff_first.1 h
  cases hreports

/-- A text is unreadable if its document has no configuration, whatever faults there are in the
joints that can be read. -/
theorem exists_unreadable_iff (hparse : Toml.parse? text = some document) :
    (∃ notice, ofText text complaint = .error (.config (.unreadable notice))) ↔
      ¬∃ config, ofTable document = .ok config := by
  constructor
  · rintro ⟨notice, h⟩ ⟨config, hconfig⟩
    cases ofText_eq_iff.1 h with
    | notDocument hparse' _ => cases hparse.symm.trans hparse'
    | notConfig hparse' hread _ =>
      cases hparse.symm.trans hparse'
      cases hconfig.symm.trans hread
    | faulty _ _ hcheck => exact check_ne_unreadable _ notice hcheck
  · intro h
    cases hread : ofTable document with
    | error fault =>
      exact ⟨_, (Reads.notConfig hparse hread (BoundedText.text_orEmpty _)).eq_ofText⟩
    | ok config => exact absurd ⟨config, hread⟩ h

/-- For a document without dates in the wrong place that is decided by its grammar. -/
theorem exists_unreadable_iff_grammar (hparse : Toml.parse? text = some document)
    (htimeless : IsTimeless document) :
    (∃ notice, ofText text complaint = .error (.config (.unreadable notice))) ↔
      ¬IsConfigDocument document := by
  have hdocument := isDistinct_of_parse? hparse
  have hgrammar := (asks_ofTable hdocument htimeless).exists_ok_iff
  rw [exists_unreadable_iff hparse, hgrammar, forall_demands_iff hdocument]

/-- What enforcement relies on: few joints with distinct short names, each of which finds its own
settings, and limits in force that are usable. -/
structure IsUsable (config : Config) : Prop where
  size : config.joints.size ≤ 32
  distinct : config.names.Nodup
  short : ∀ name ∈ config.names, name.utf8ByteSize ≤ 32
  found : ∀ name settings, config.settings? name = some settings ↔
    ∃ joint, joint.text = name ∧ (joint, settings) ∈ config.joints.entries
  band : ∀ entry ∈ config.joints.entries, entry.2.hard.hasPosition →
    ¬entry.2.hard.minPosition.isNaN ∧ ¬entry.2.hard.maxPosition.isNaN ∧
      entry.2.hard.minPosition < entry.2.hard.maxPosition ∧ entry.2.hard.wraps = false
  magnitude : ∀ entry ∈ config.joints.entries, ∀ limit bound,
    entry.2.hard.magnitude? limit = some bound → 0.0 < bound

theorem isUsable_of_check (hcheck : config.check = .ok ()) : config.IsUsable := by
  have hsound := check_eq_ok_iff_sound.1 hcheck
  exact
    { size := config.joints.fits
      distinct := config.joints.nodup_names
      short := fun _ => config.joints.utf8ByteSize_le_of_mem_names
      found := fun _ _ => Roster.find?_eq_some_iff
      band := fun entry hentry => (hsound entry hentry).band
      magnitude := fun entry hentry _ _ => (hsound entry hentry).magnitude }

theorem isUsable_of_ofText (h : ofText text complaint = .ok config) : config.IsUsable := by
  cases ofText_eq_iff.1 h with
  | accepted _ _ hcheck => exact isUsable_of_check hcheck

theorem fromUTF8?_toUTF8 (text : String) : String.fromUTF8? text.toUTF8 = some text :=
  dif_pos text.isValidUTF8

theorem load_toUTF8 (complaint : String → String) (text : String) :
    load (.file text.toUTF8) complaint = ofText text complaint := by
  have htext : Target.text (.file text.toUTF8) = .ok text := by
    rw [Target.text, fromUTF8?_toUTF8]
  rw [load, htext]
  rfl

end Config

/-- Reading a text reports the first stage that fails, with the whole message or none of it, or
gives what the document says.  A document outside the grammar is unreadable whatever else is wrong
with it, what is accepted is usable, and a file is read as its text. -/
theorem ofText_staged (complaint : String → String) (text : String) :
    (∀ result, Config.ofText text complaint = result ↔ Config.Reads complaint text result) ∧
      (∀ document, Toml.parse? text = some document → Config.IsTimeless document →
        ((∃ notice, Config.ofText text complaint = .error (.config (.unreadable notice))) ↔
          ¬IsConfigDocument document)) ∧
      (∀ config, Config.ofText text complaint = .ok config → config.IsUsable) ∧
      Config.load (.file text.toUTF8) complaint = Config.ofText text complaint :=
  ⟨fun _ => Config.ofText_eq_iff, fun _ => Config.exists_unreadable_iff_grammar,
    fun _ => Config.isUsable_of_ofText, Config.load_toUTF8 complaint text⟩

/-- The joint moves at a speed that no joint can have. -/
def oneFault : String := "[joints.arm]\nmax_velocity = -1.0\n"

/-- The same joint, and one behind it that cannot be read. -/
def twoFaults : String := oneFault ++ "[joints.wrist]\nmax_velocity = \"fast\"\n"

/-- The record that cannot be read comes later and is reported all the same. -/
theorem ofText_staged_twoFaults :
    (Config.ofText oneFault).map Config.names =
        .error (.config (.invalidLimit .velocity (-1.0))) ∧
      Config.Reads (fun _ => "") twoFaults
        (.error (.config (.unreadable (.cut "invalid type: string \"fast\", expected f64")))) := by
  refine ⟨by decide +kernel, ?_⟩
  have hreport : (Config.ofText twoFaults fun _ => "").map Config.names =
      .error (.config (.unreadable (.cut "invalid type: string \"fast\", expected f64"))) := by
    decide +kernel
  obtain ⟨hstages, -⟩ := ofText_staged (fun _ => "") twoFaults
  cases hresult : Config.ofText twoFaults fun _ => "" with
  | ok config =>
    rw [hresult] at hreport
    cases hreport
  | error fault =>
    rw [hresult] at hreport
    cases hreport
    exact (hstages _).1 hresult

end JointGuard
