import JointGuard.Proofs.Config.Acceptance
import JointGuard.Proofs.Screening

/-! # What a check reports

The settings of a joint are held to a list of rules, the gravest first.  A configuration is accepted
if every joint keeps every rule; otherwise the report is about the first joint that breaks a rule,
and about the first rule that it breaks (`check_reportsFirst`). -/

namespace JointGuard
open Floating

theorem JointSettings.band?_eq_some_iff {settings : JointSettings} {min max : Float} :
    settings.band? = some (min, max) ↔
      settings.minPosition = some min ∧ settings.maxPosition = some max := by
  cases hmin : settings.minPosition <;> cases hmax : settings.maxPosition <;>
    simp [band?, hmin, hmax]

/-- What settings have to keep to. -/
inductive SettingsRule where
  | paired
  | unwrapped
  | ordered
  | positive (limit : Magnitude)
  | validSoft

namespace SettingsRule

def all : List SettingsRule :=
  [.paired, .unwrapped, .ordered] ++ Magnitude.all.map .positive ++ [.validSoft]

theorem mem_all (rule : SettingsRule) : rule ∈ all := by
  cases rule with
  | positive limit => cases limit <;> simp [all, Magnitude.all]
  | _ => simp [all]

def IsKept (settings : JointSettings) : SettingsRule → Prop
  | .paired => settings.minPosition.isSome ↔ settings.maxPosition.isSome
  | .unwrapped =>
    settings.minPosition.isSome → settings.maxPosition.isSome → settings.wraps = false
  | .ordered => ∀ min max, settings.minPosition = some min → settings.maxPosition = some max →
    ¬min.isNaN ∧ ¬max.isNaN ∧ min < max
  | .positive limit => ∀ bound, settings.magnitude limit = some bound → ¬bound.isNaN ∧ 0.0 < bound
  | .validSoft => ∀ soft, settings.soft = some soft →
    soft.minPosition ≤ soft.maxPosition ∧ 0.0 ≤ soft.positionGain ∧ 0.0 ≤ soft.velocityGain

/-- How a broken rule is reported. -/
inductive Reports (joint : JointName) (settings : JointSettings) : SettingsRule → ConfigFault → Prop
  | paired : Reports joint settings .paired (.incompletePositionLimits joint)
  | unwrapped : Reports joint settings .unwrapped (.wraparoundWithPositionLimits joint)
  | ordered {min max : Float} (hmin : settings.minPosition = some min)
      (hmax : settings.maxPosition = some max) :
      Reports joint settings .ordered (.invalidPositionLimits joint min max)
  | positive {limit : Magnitude} {bound : Float} (hbound : settings.magnitude limit = some bound) :
      Reports joint settings (.positive limit) (.invalidLimit limit bound)
  | validSoft : Reports joint settings .validSoft (.invalidSoftLimits joint)

/-- The fault of a rule, if it is broken. -/
def fault? (joint : JointName) (settings : JointSettings) : SettingsRule → Option ConfigFault
  | .paired => if settings.isPartial then some (.incompletePositionLimits joint) else none
  | .unwrapped => settings.band?.bind fun _ =>
    if settings.wraps then some (.wraparoundWithPositionLimits joint) else none
  | .ordered => settings.band?.bind fun (min, max) =>
    if min < max then none else some (.invalidPositionLimits joint min max)
  | .positive limit => (settings.magnitude limit).bind fun bound =>
    if 0.0 < bound then none else some (.invalidLimit limit bound)
  | .validSoft => settings.soft.bind fun soft =>
    if soft.isValid then none else some (.invalidSoftLimits joint)

variable {joint : JointName} {settings : JointSettings} {rule : SettingsRule}

theorem fault?_eq_none_iff : rule.fault? joint settings = none ↔ rule.IsKept settings := by
  cases rule with
  | paired =>
    cases hmin : settings.minPosition <;> cases hmax : settings.maxPosition <;>
      simp [fault?, IsKept, JointSettings.isPartial, hmin, hmax]
  | unwrapped =>
    cases hmin : settings.minPosition <;> cases hmax : settings.maxPosition <;>
      simp [fault?, IsKept, JointSettings.band?, hmin, hmax]
  | ordered =>
    cases hmin : settings.minPosition <;> cases hmax : settings.maxPosition <;>
      simp only [fault?, IsKept, JointSettings.band?, hmin, hmax] <;> grind [lt_iff]
  | positive limit =>
    cases hbound : settings.magnitude limit <;> simp only [fault?, IsKept, hbound] <;>
      grind [lt_iff]
  | validSoft =>
    cases hsoft : settings.soft <;> simp [fault?, IsKept, hsoft, ← SoftLimits.isValid_iff]

theorem reports_of_fault? {fault : ConfigFault} (h : rule.fault? joint settings = some fault) :
    rule.Reports joint settings fault := by
  cases rule with
  | paired =>
    rw [fault?, Option.ite_none_right_eq_some, Option.some_inj] at h
    obtain ⟨-, rfl⟩ := h
    exact .paired
  | unwrapped =>
    obtain ⟨band, -, h⟩ := Option.bind_eq_some_iff.1 h
    rw [Option.ite_none_right_eq_some, Option.some_inj] at h
    obtain ⟨-, rfl⟩ := h
    exact .unwrapped
  | ordered =>
    obtain ⟨⟨min, max⟩, hband, h⟩ := Option.bind_eq_some_iff.1 h
    rw [Option.ite_none_left_eq_some, Option.some_inj] at h
    obtain ⟨-, rfl⟩ := h
    obtain ⟨hmin, hmax⟩ := JointSettings.band?_eq_some_iff.1 hband
    exact .ordered hmin hmax
  | positive limit =>
    obtain ⟨bound, hbound, h⟩ := Option.bind_eq_some_iff.1 h
    rw [Option.ite_none_left_eq_some, Option.some_inj] at h
    obtain ⟨-, rfl⟩ := h
    exact .positive hbound
  | validSoft =>
    obtain ⟨soft, -, h⟩ := Option.bind_eq_some_iff.1 h
    rw [Option.ite_none_left_eq_some, Option.some_inj] at h
    obtain ⟨-, rfl⟩ := h
    exact .validSoft

theorem Reports.unique {first second : ConfigFault} (hfirst : rule.Reports joint settings first)
    (hsecond : rule.Reports joint settings second) : first = second := by
  cases hfirst <;> cases hsecond <;> simp_all

theorem fault?_eq_some_iff {fault : ConfigFault} : rule.fault? joint settings = some fault ↔
    ¬rule.IsKept settings ∧ rule.Reports joint settings fault := by
  constructor
  · intro h
    refine ⟨fun hkept => ?_, reports_of_fault? h⟩
    rw [fault?_eq_none_iff.2 hkept] at h
    cases h
  · rintro ⟨hbroken, hreports⟩
    obtain ⟨found, hfound⟩ := Option.ne_none_iff_exists'.1 (mt fault?_eq_none_iff.1 hbroken)
    rw [hfound, (reports_of_fault? hfound).unique hreports]

end SettingsRule

namespace JointSettings

variable (joint : JointName) (settings : JointSettings)

/-- The faults of a joint are those of the rules that it breaks, in order. -/
theorem faults_eq_filterMap :
    settings.faults joint = SettingsRule.all.filterMap (·.fault? joint settings) := by
  have hposition : settings.positionFaults joint =
      [SettingsRule.paired, .unwrapped, .ordered].filterMap (·.fault? joint settings) := by
    simp only [List.filterMap_cons, List.filterMap_nil]
    cases hmin : settings.minPosition <;> cases hmax : settings.maxPosition <;>
      simp only [positionFaults, SettingsRule.fault?, isPartial, band?, hmin, hmax]
    case some.some min max =>
      by_cases hwraps : settings.wraps <;> by_cases hlt : min < max <;> simp [hwraps, hlt]
    all_goals rfl
  have hmagnitude : settings.magnitudeFaults =
      (Magnitude.all.map SettingsRule.positive).filterMap (·.fault? joint settings) := by
    rw [List.filterMap_map, magnitudeFaults]
    refine List.filterMap_congr fun limit _ => ?_
    rw [Function.comp, SettingsRule.fault?]
    cases settings.magnitude limit <;> rfl
  have hsoft : settings.softFaults joint =
      [SettingsRule.validSoft].filterMap (·.fault? joint settings) := by
    simp only [List.filterMap_cons, List.filterMap_nil, softFaults, SettingsRule.fault?]
    cases settings.soft with
    | none => rfl
    | some soft => by_cases hvalid : soft.isValid <;> simp [hvalid]
  rw [faults, hposition, hmagnitude, hsoft, SettingsRule.all, List.filterMap_append,
    List.filterMap_append]

/-- No rule is broken. -/
def Sound : Prop := ∀ rule ∈ SettingsRule.all, rule.IsKept settings

theorem not_sound_of_isFirst {settings : JointSettings} {rule : SettingsRule}
    (h : IsFirst (fun rule => ¬rule.IsKept settings) SettingsRule.all rule) :
    ¬settings.Sound := by
  obtain ⟨before, after, hall, -, hbroken⟩ := h
  exact fun hsound => hbroken (hsound rule (hall ▸ by simp))

theorem faults_eq_nil_iff : settings.faults joint = [] ↔ settings.Sound := by
  rw [faults_eq_filterMap, List.filterMap_eq_nil_iff]
  simp only [SettingsRule.fault?_eq_none_iff, Sound]

theorem head?_faults_eq_some_iff {fault : ConfigFault} :
    (settings.faults joint).head? = some fault ↔ ∃ rule,
      IsFirst (fun rule => ¬rule.IsKept settings) SettingsRule.all rule ∧
        rule.Reports joint settings fault := by
  rw [faults_eq_filterMap, List.head?_filterMap, List.findSome?_eq_some_iff]
  simp only [SettingsRule.fault?_eq_some_iff, SettingsRule.fault?_eq_none_iff, IsFirst,
    Classical.not_not]
  constructor
  · rintro ⟨before, rule, after, hall, ⟨hbroken, hreports⟩, hbefore⟩
    exact ⟨rule, ⟨before, after, hall, hbefore, hbroken⟩, hreports⟩
  · rintro ⟨rule, ⟨before, after, hall, hbefore, hbroken⟩, hreports⟩
    exact ⟨before, rule, after, hall, ⟨hbroken, hreports⟩, hbefore⟩

namespace Sound

variable {settings : JointSettings}

/-- The position limits in force are two numbers with room between them, of a joint that does not
wrap around. -/
theorem band (h : settings.Sound) (hflag : settings.hard.hasPosition) :
    ¬settings.hard.minPosition.isNaN ∧ ¬settings.hard.maxPosition.isNaN ∧
      settings.hard.minPosition < settings.hard.maxPosition ∧ settings.hard.wraps = false := by
  have hcarries := settings.carries_hard
  have hband : settings.band? = some (settings.hard.minPosition, settings.hard.maxPosition) := by
    rw [← hcarries.band, HardLimits.band?, if_pos hflag]
  obtain ⟨hmin, hmax⟩ := band?_eq_some_iff.1 hband
  obtain ⟨hminNaN, hmaxNaN, hlt⟩ := h .ordered (SettingsRule.mem_all _) _ _ hmin hmax
  have hwraps := h .unwrapped (SettingsRule.mem_all _) (hmin ▸ rfl) (hmax ▸ rfl)
  exact ⟨hminNaN, hmaxNaN, hlt, hcarries.wraps.trans hwraps⟩

theorem magnitude (h : settings.Sound) {limit : Magnitude} {bound : Float}
    (hbound : settings.hard.magnitude? limit = some bound) : 0.0 < bound := by
  rw [settings.carries_hard.magnitude] at hbound
  exact (h (.positive limit) (SettingsRule.mem_all _) bound hbound).2

end Sound

end JointSettings

namespace Config

/-- What a check of a configuration comes to. -/
structure ReportsFirst (config : Config) : Prop where
  accepted : config.check = .ok () ↔ ∀ entry ∈ config.joints.entries, entry.2.Sound
  /-- The report is about the first joint that is not sound and the first rule that it breaks. -/
  reported : ∀ fault, config.check = .error fault ↔ ∃ joint settings rule,
    IsFirst (fun entry => ¬entry.2.Sound) config.joints.entries (joint, settings) ∧
      IsFirst (fun rule => ¬rule.IsKept settings) SettingsRule.all rule ∧
      rule.Reports joint settings fault
  /-- What comes behind a joint that is not sound has no influence. -/
  later : ∀ (other : Config) before entry after after', ¬entry.2.Sound →
    config.joints.entries = before ++ entry :: after →
    other.joints.entries = before ++ entry :: after' → other.check = config.check
  /-- Of the soft limits nothing counts but their validity; where they lie does not. -/
  softBand : ∀ (other : Config) (change : SoftLimits → SoftLimits),
    (∀ soft, (change soft).isValid = soft.isValid) →
    other.joints.entries = config.joints.entries.map (fun (joint, settings) =>
      (joint, { settings with soft := settings.soft.map change })) →
    other.check = config.check

variable {config : Config}

theorem faults_eq (config : Config) :
    config.faults = config.joints.entries.flatMap fun entry => entry.2.faults entry.1 := rfl

theorem check_eq_ok_iff_sound :
    config.check = .ok () ↔ ∀ entry ∈ config.joints.entries, entry.2.Sound := by
  rw [check_eq_ok_iff, faults_eq, List.flatMap_eq_nil_iff]
  simp only [JointSettings.faults_eq_nil_iff]

theorem check_eq_error_iff_first {fault : ConfigFault} : config.check = .error fault ↔
    ∃ joint settings rule,
      IsFirst (fun entry => ¬entry.2.Sound) config.joints.entries (joint, settings) ∧
        IsFirst (fun rule => ¬rule.IsKept settings) SettingsRule.all rule ∧
        rule.Reports joint settings fault := by
  rw [check_eq_error_iff, faults_eq, List.head?_flatMap, List.findSome?_eq_some_iff]
  simp only [List.head?_eq_none_iff, JointSettings.head?_faults_eq_some_iff,
    JointSettings.faults_eq_nil_iff]
  constructor
  · rintro ⟨before, ⟨joint, settings⟩, after, hentries, ⟨rule, hrule, hreports⟩, hbefore⟩
    refine ⟨joint, settings, rule, ⟨before, after, hentries, ?_, ?_⟩, hrule, hreports⟩
    · exact fun entry hentry => Classical.not_not.2 (hbefore entry hentry)
    · exact JointSettings.not_sound_of_isFirst hrule
  · rintro ⟨joint, settings, rule, ⟨before, after, hentries, hbefore, -⟩, hrule, hreports⟩
    refine ⟨before, (joint, settings), after, hentries, ⟨rule, hrule, hreports⟩, ?_⟩
    exact fun entry hentry => Classical.not_not.1 (hbefore entry hentry)

theorem check_eq_of_head? {other : Config} (h : other.faults.head? = config.faults.head?) :
    other.check = config.check := by
  unfold check
  cases hother : other.faults <;> cases hconfig : config.faults <;> simp_all

theorem head?_faults_of_unsound {before after : List (JointName × JointSettings)}
    {entry : JointName × JointSettings} (hunsound : ¬entry.2.Sound)
    (hentries : config.joints.entries = before ++ entry :: after) :
    config.faults.head? = ((before.flatMap fun entry => entry.2.faults entry.1) ++
      entry.2.faults entry.1).head? := by
  obtain ⟨fault, rest, hfaults⟩ :=
    List.exists_cons_of_ne_nil (mt (JointSettings.faults_eq_nil_iff entry.1 entry.2).1 hunsound)
  rw [faults_eq, hentries, List.flatMap_append, List.flatMap_cons, hfaults, List.cons_append,
    List.head?_append, List.head?_append, List.head?_cons, List.head?_cons]

theorem faults_of_change {other : Config} {change : SoftLimits → SoftLimits}
    (hvalid : ∀ soft, (change soft).isValid = soft.isValid)
    (hentries : other.joints.entries = config.joints.entries.map fun (joint, settings) =>
      (joint, { settings with soft := settings.soft.map change })) :
    other.faults = config.faults := by
  have hsettings (joint : JointName) (settings : JointSettings) :
      { settings with soft := settings.soft.map change }.faults joint = settings.faults joint := by
    cases hsoft : settings.soft with
    | none => rw [Option.map_none, ← hsoft]
    | some soft =>
      simp only [JointSettings.faults, JointSettings.softFaults, hsoft, Option.map_some, hvalid]
      rfl
  rw [faults_eq, hentries, List.flatMap_map, faults_eq]
  exact List.flatMap_congr fun entry _ => hsettings entry.1 entry.2

end Config

/-- A configuration is accepted if all its joints keep all rules, and otherwise the first rule that
the first unsound joint breaks is reported.  Nothing behind that joint counts, and neither does
where a soft band lies. -/
theorem check_reportsFirst (config : Config) : config.ReportsFirst := by
  constructor
  case accepted => exact Config.check_eq_ok_iff_sound
  case reported => exact fun fault => Config.check_eq_error_iff_first
  case later =>
    intro other before entry after after' hunsound hconfig hother
    apply Config.check_eq_of_head?
    rw [Config.head?_faults_of_unsound hunsound hconfig,
      Config.head?_faults_of_unsound hunsound hother]
  case softBand =>
    intro other change hvalid hentries
    exact Config.check_eq_of_head? (by rw [Config.faults_of_change hvalid hentries])

def slowArm : JointSettings := { maxVelocity := some 0.5 }

/-- Turns without end between two ends that are the wrong way round. -/
def brokenWrist : JointSettings :=
  { minPosition := some 1.0, maxPosition := some (-1.0), wraps := true }

def brokenHand : JointSettings := { minPosition := some 0.0, maxEffort := some (-0.0) }

def brokenRobot : Config where
  joints :=
    { entries := [(.cut "arm", slowArm), (.cut "wrist", brokenWrist), (.cut "hand", brokenHand)]
      distinct := by decide +kernel
      fits := by decide }

/-- Of the two faulty joints the first is reported, and of its two faults the first. -/
theorem check_brokenRobot :
    brokenRobot.check = .error (.wraparoundWithPositionLimits (.cut "wrist")) := by
  have harm : slowArm.Sound :=
    (slowArm.faults_eq_nil_iff (.cut "arm")).1 (by decide +kernel)
  have hpaired : SettingsRule.paired.IsKept brokenWrist := by
    simp [SettingsRule.IsKept, brokenWrist]
  have hwraps : ¬SettingsRule.unwrapped.IsKept brokenWrist := by
    simp [SettingsRule.IsKept, brokenWrist]
  have hrule : IsFirst (fun rule => ¬rule.IsKept brokenWrist) SettingsRule.all .unwrapped :=
    ⟨[.paired], _, rfl, by simpa using hpaired, hwraps⟩
  refine ((check_reportsFirst brokenRobot).reported _).2
    ⟨.cut "wrist", brokenWrist, .unwrapped, ⟨[(.cut "arm", slowArm)], _, rfl, ?_, ?_⟩, hrule,
      .unwrapped⟩
  · simpa using harm
  · exact JointSettings.not_sound_of_isFirst hrule

end JointGuard
