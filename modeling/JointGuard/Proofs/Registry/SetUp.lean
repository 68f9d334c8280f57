import JointGuard.Proofs.Config.Checking
import JointGuard.Proofs.Config.Lookup
import JointGuard.Proofs.Config.Rules
import JointGuard.Proofs.Registry.Registration

/-! # Setting up a configured joint

Setting a joint up looks for its settings, for the limits that the rule of the mode needs, and then
for a place in the registry.  It succeeds if everything is there, and otherwise reports the first
thing that is missing (`setUp_outcome`). -/

namespace JointGuard
open Text

/-- What setting a joint up needs. -/
inductive Need where
  | settings
  | softLimits
  | velocityLimits
  | effortLimits
  | newName
  | room

/-- What the rule of a mode needs, in the order in which it is looked at. -/
def Mode.ruleNeeds : Mode → List Need
  | .position => [.settings, .softLimits, .velocityLimits]
  | .effort => [.settings, .softLimits, .velocityLimits, .effortLimits]
  | .velocity => [.settings, .velocityLimits]

/-- The rule comes first and the registry last. -/
def Mode.needs (mode : Mode) : List Need := mode.ruleNeeds ++ [.newName, .room]

variable {mode : Mode} {n : Nat}

namespace Need

def IsMet (config : Config) (registry : Registry mode n) (name : String) : Need → Prop
  | .settings => name ∈ config.names
  | .softLimits => config.Has name (·.soft.isSome)
  | .velocityLimits => config.Has name (·.maxVelocity.isSome)
  | .effortLimits => config.Has name (·.maxEffort.isSome)
  | .newName => name ∉ registry.names
  | .room => registry.size < registry.capacity

def fault (name : String) (capacity : Nat) : Need → Fault
  | .settings => .config (.jointNotFound (.cut name))
  | .softLimits => .config (.missingSoftLimits (.cut name))
  | .velocityLimits => .config (.missingVelocityLimits (.cut name))
  | .effortLimits => .config (.missingEffortLimits (.cut name))
  | .newName => .registration (.duplicateJoint (.cut name))
  | .room => .registration (.registryFull capacity)

end Need

namespace Config

variable {config : Config} {name : String} {rule : Rule mode}

theorem settings_of_rule (h : config.rule name mode = .ok rule) :
    ∃ settings, config.settings name = .ok settings ∧ settings.hard = rule.hard :=
  hardLimits_eq_ok_iff.1 (hardLimits_of_rule h)

/-- A rule has the soft limits of its joint, if its mode has any. -/
theorem soft?_of_rule {settings : JointSettings} (h : config.rule name mode = .ok rule)
    (hsettings : config.settings name = .ok settings) :
    rule.soft? = if mode = .velocity then none else settings.soft := by
  have hfound {soft : SoftLimits} (hsoft : config.softLimits name = .ok soft) :
      some soft = settings.soft := by
    obtain ⟨found, hfound, hsoft⟩ := softLimits_eq_ok_iff.1 hsoft
    cases hsettings.symm.trans hfound
    exact hsoft.symm
  cases mode with
  | position =>
    obtain ⟨hard, -, h⟩ := exists_ok_of_bind h
    obtain ⟨soft, hsoft, h⟩ := exists_ok_of_bind h
    obtain ⟨_, rfl⟩ := Rule.eq_of_ofPosition h
    exact hfound hsoft
  | effort =>
    obtain ⟨hard, -, h⟩ := exists_ok_of_bind h
    obtain ⟨soft, hsoft, h⟩ := exists_ok_of_bind h
    obtain ⟨_, _, rfl⟩ := Rule.eq_of_ofEffort h
    exact hfound hsoft
  | velocity =>
    cases rule
    rfl

end Config

theorem mapError_bind {ε ε' α β : Type} (f : ε → ε') (first : Except ε α)
    (rest : α → Except ε β) :
    (first >>= rest).mapError f = first.mapError f >>= fun a => (rest a).mapError f := by
  cases first <;> rfl

theorem mapError_eq_ok_iff {ε ε' α : Type} {f : ε → ε'} {result : Except ε α} {a : α} :
    result.mapError f = .ok a ↔ result = .ok a := by
  cases result <;> simp [Except.mapError]

section
variable {config : Config} {registry : Registry mode n} {name : String}

/-- What a stage of setting the joint of that name up looks at. -/
abbrev Looks {α : Type} (config : Config) (registry : Registry mode n) (name : String)
    (needs : List Need) (result : Except Fault α) : Prop :=
  Screened (Need.IsMet config registry name) (Need.fault name registry.capacity) needs result

theorem looks_hardLimits :
    Looks config registry name [.settings] ((config.hardLimits name).mapError .config) := by
  refine .single (fun hmet => ?_) (fun hunmet => ?_)
  · obtain ⟨settings, h⟩ := Config.exists_settings hmet
    exact ⟨settings.hard, by rw [Config.hardLimits, h]; rfl⟩
  · rw [Config.hardLimits, Config.settings_of_notMem hunmet]
    rfl

variable {settings : JointSettings} (h : config.settings name = .ok settings)
include h

theorem looks_softLimits :
    Looks config registry name [.softLimits] ((config.softLimits name).mapError .config) := by
  have hiff : config.Has name (·.soft.isSome) ↔ settings.soft.isSome := Config.has_iff h
  rw [Config.softLimits, h]
  refine .single (fun hmet => ?_) (fun hunmet => ?_)
  · obtain ⟨soft, hsoft⟩ := Option.isSome_iff_exists.1 (hiff.1 hmet)
    exact ⟨soft, by simp [bind, Except.bind, hsoft, Except.mapError]⟩
  · have hnone : settings.soft = none := by simpa using mt hiff.2 hunmet
    simp [bind, Except.bind, hnone, Except.mapError, Need.fault]

theorem looks_ofPosition (soft : SoftLimits) : Looks config registry name [.velocityLimits]
    ((Rule.ofPosition name settings.hard soft).mapError .config) := by
  have hiff : config.Has name (·.maxVelocity.isSome) ↔ settings.hard.hasVelocity :=
    Config.has_iff h
  rw [Rule.ofPosition]
  split
  next hvelocity => exact .pass (hiff.2 hvelocity) (.done _)
  next hnone => exact .fail _ (mt hiff.1 hnone)

theorem looks_ofVelocity : Looks config registry name [.velocityLimits]
    ((Rule.ofVelocity name settings.hard).mapError .config) := by
  have hiff : config.Has name (·.maxVelocity.isSome) ↔ settings.hard.hasVelocity :=
    Config.has_iff h
  rw [Rule.ofVelocity]
  split
  next hvelocity => exact .pass (hiff.2 hvelocity) (.done _)
  next hnone => exact .fail _ (mt hiff.1 hnone)

theorem looks_ofEffort (soft : SoftLimits) :
    Looks config registry name [.velocityLimits, .effortLimits]
      ((Rule.ofEffort name settings.hard soft).mapError .config) := by
  have hvelocity : config.Has name (·.maxVelocity.isSome) ↔ settings.hard.hasVelocity :=
    Config.has_iff h
  have heffort : config.Has name (·.maxEffort.isSome) ↔ settings.hard.hasEffort :=
    Config.has_iff h
  rw [Rule.ofEffort]
  split
  next hmet =>
    refine .pass (hvelocity.2 hmet) ?_
    split
    next hmet' => exact .pass (heffort.2 hmet') (.done _)
    next hnone => exact .fail _ (mt heffort.1 hnone)
  next hnone => exact .fail _ (mt hvelocity.1 hnone)

end

theorem looks_rule (config : Config) (registry : Registry mode n) (name : String) :
    Looks config registry name mode.ruleNeeds ((config.rule name mode).mapError .config) := by
  -- settings that have been found are found again for the soft limits
  have hfound {hard : HardLimits}
      (h : (config.hardLimits name).mapError Fault.config = .ok hard) :
      ∃ settings, config.settings name = .ok settings ∧ settings.hard = hard :=
    Config.hardLimits_eq_ok_iff.1 (mapError_eq_ok_iff.1 h)
  cases mode with
  | position =>
    rw [Config.rule, mapError_bind]
    refine looks_hardLimits.bind [.softLimits, .velocityLimits] fun hard hhard => ?_
    obtain ⟨settings, h, rfl⟩ := hfound hhard
    rw [mapError_bind]
    refine (looks_softLimits h).bind [.velocityLimits] fun soft _ => ?_
    exact looks_ofPosition h soft
  | effort =>
    rw [Config.rule, mapError_bind]
    refine looks_hardLimits.bind [.softLimits, .velocityLimits, .effortLimits]
      fun hard hhard => ?_
    obtain ⟨settings, h, rfl⟩ := hfound hhard
    rw [mapError_bind]
    refine (looks_softLimits h).bind [.velocityLimits, .effortLimits] fun soft _ => ?_
    exact looks_ofEffort h soft
  | velocity =>
    rw [Config.rule, mapError_bind]
    refine looks_hardLimits.bind [.velocityLimits] fun hard hhard => ?_
    obtain ⟨settings, h, rfl⟩ := hfound hhard
    exact looks_ofVelocity h

/-- A configured name is never too long, so registration looks at two things only. -/
theorem looks_register {config : Config} (registry : Registry mode n) (handle : Handle mode n)
    (hname : handle.name ∈ config.names) :
    Looks config registry handle.name [.newName, .room]
      ((registry.register handle).mapError .registration) := by
  have hfits : handle.name.utf8ByteSize ≤ 32 := config.joints.utf8ByteSize_le_of_mem_names hname
  rcases registry.register_cases handle with
    ⟨hlong, -⟩ | ⟨-, ⟨hold, h⟩ | ⟨hnew, ⟨hfull, h⟩ | ⟨hroom, next, h, -⟩⟩⟩
  · exact absurd hfits (Nat.not_le_of_gt hlong)
  · rw [h]
    exact .fail _ fun hnew : handle.name ∉ registry.names => hnew hold
  · have hnoRoom : ¬registry.size < registry.capacity := by omega
    rw [h]
    exact .pass hnew (.fail _ hnoRoom)
  · rw [h]
    exact .pass hnew (.pass hroom (.done next))

namespace Session

theorem setUp_eq (session : Session mode n) (config : Config) (name : String) (joint : Fin n) :
    session.setUp config name joint =
      (config.rule name mode).mapError .config >>= fun rule =>
        (session.registry.register { name, joint, rule }).mapError .registration >>= fun registry =>
          .ok { session with registry } := rfl

theorem looks_setUp (session : Session mode n) (config : Config) (name : String)
    (joint : Fin n) :
    Looks config session.registry name mode.needs (session.setUp config name joint) := by
  rw [setUp_eq, Mode.needs]
  refine (looks_rule config session.registry name).bind _ fun rule hrule => ?_
  obtain ⟨settings, h, -⟩ := Config.settings_of_rule (mapError_eq_ok_iff.1 hrule)
  refine (looks_register session.registry { name, joint, rule }
    (Config.mem_names_of_settings h)).bind [] fun registry _ => .done _

/-- The session after an attempt to set a joint up, whether it succeeds or fails. -/
def afterSetUp (session : Session mode n) (config : Config) (name : String) (joint : Fin n) :
    Session mode n :=
  match session.setUp config name joint with
  | .ok next => next
  | .error _ => session

/-- What a joint that has been set up comes to: one more handle, which carries the limits that are
configured, and nothing else. -/
structure SetsUp (session : Session mode n) (config : Config) (name : String) (joint : Fin n)
    (next : Session mode n) : Prop where
  joints : next.joints = session.joints
  capacity : next.registry.capacity = session.registry.capacity
  handle : ∃ handle settings, next.registry.toList = session.registry.toList ++ [handle] ∧
    next.registry.find name = .ok handle ∧ handle.name = name ∧ handle.joint = joint ∧
    config.Has name (· = settings) ∧ handle.rule.hard.Carries settings ∧
    handle.rule.soft? = if mode = .velocity then none else settings.soft

theorem setsUp_of_setUp {session next : Session mode n} {config : Config} {name : String}
    {joint : Fin n} (h : session.setUp config name joint = .ok next) :
    session.SetsUp config name joint next := by
  rw [setUp_eq] at h
  obtain ⟨rule, hrule, h⟩ := exists_ok_of_bind h
  obtain ⟨registry, hregistry, h⟩ := exists_ok_of_bind h
  cases h
  rw [mapError_eq_ok_iff] at hrule hregistry
  obtain ⟨settings, hsettings, hhard⟩ := Config.settings_of_rule hrule
  obtain ⟨hcapacity, hlist⟩ := (session.registry.registers _).appended registry hregistry
  refine ⟨rfl, hcapacity, { name, joint, rule }, settings, hlist, ?_, rfl, rfl,
    (Config.has_iff hsettings).2 rfl, hhard ▸ settings.carries_hard,
    Config.soft?_of_rule hrule hsettings⟩
  exact Registry.find_eq_ok_iff.2 ⟨by simp [hlist], rfl⟩

end Session

/-- Setting a joint up succeeds if everything it needs is there, and then adds a handle with the
limits that are configured.  Otherwise the first need that is not met is reported, and nothing
changes. -/
theorem setUp_outcome (session : Session mode n) (config : Config) (name : String)
    (joint : Fin n) :
    let result := session.setUp config name joint
    let IsMet := Need.IsMet config session.registry name
    ((∃ next, result = .ok next) ↔ ∀ need ∈ mode.needs, IsMet need) ∧
      (∀ fault, result = .error fault ↔ ∃ need, IsFirst (fun need => ¬IsMet need) mode.needs need ∧
        fault = need.fault name session.registry.capacity) ∧
      result ≠ .error (.registration .nameTooLong) ∧
      (∀ fault, result = .error fault → session.afterSetUp config name joint = session) ∧
      ∀ next, result = .ok next → session.afterSetUp config name joint = next ∧
        session.SetsUp config name joint next := by
  intro result IsMet
  have hlooks := session.looks_setUp config name joint
  refine ⟨hlooks.exists_ok_iff, fun fault => hlooks.eq_error_iff, fun hlong => ?_,
    fun fault hfault => ?_, fun next hnext => ⟨?_, Session.setsUp_of_setUp hnext⟩⟩
  · obtain ⟨need, -, hneed⟩ := hlooks.eq_error_iff.1 hlong
    cases need <;> cases hneed
  · rw [Session.afterSetUp, show session.setUp config name joint = .error fault from hfault]
  · rw [Session.afterSetUp, show session.setUp config name joint = .ok next from hnext]

def gripperSettings : JointSettings :=
  { maxVelocity := some 2.0, maxEffort := some 5.0, soft := some ⟨10.0, 1.0, -0.5, 0.5⟩ }

def gripperConfig : Config where
  joints :=
    { entries := [(.cut "gripper", gripperSettings)]
      distinct := by simp
      fits := by decide }

theorem setUp_gripper :
    let session := Session.start .effort 1 2
    let next := session.afterSetUp gripperConfig "gripper" 0
    session.SetsUp gripperConfig "gripper" 0 next ∧
      next.setUp gripperConfig "gripper" 0 =
        .error (.registration (.duplicateJoint (.cut "gripper"))) ∧
      next.afterSetUp gripperConfig "gripper" 0 = next := by
  intro session next
  have hsettings : gripperConfig.settings "gripper" = .ok gripperSettings := rfl
  have hrule (registry : Registry .effort 1) :
      ∀ need ∈ Mode.effort.ruleNeeds, need.IsMet gripperConfig registry "gripper" := by
    have hname := Config.mem_names_of_settings hsettings
    simp [Mode.ruleNeeds, Need.IsMet, hname, Config.has_iff hsettings, gripperSettings]
  have hregistry : ∀ need ∈ [Need.newName, .room],
      need.IsMet gripperConfig session.registry "gripper" := by
    simp [Need.IsMet, session, Session.start, Registry.names, Registry.size, Roster.names,
      Roster.size, Registry.empty, Roster.empty]
  obtain ⟨hok, -, -, -, hafter⟩ := setUp_outcome session gripperConfig "gripper" 0
  obtain ⟨result, hresult⟩ := hok.2 (List.forall_mem_append.2 ⟨hrule _, hregistry⟩)
  obtain ⟨hnext, hsetsUp⟩ := hafter result hresult
  rw [← hnext] at hsetsUp
  have hold : "gripper" ∈ next.registry.names := by
    obtain ⟨handle, -, -, hfind, -⟩ := hsetsUp.handle
    exact Registry.exists_find_iff.1 ⟨handle, hfind⟩
  obtain ⟨-, herror, -, hunchanged, -⟩ := setUp_outcome next gripperConfig "gripper" 0
  have hduplicate := (herror _).2 ⟨.newName, ⟨Mode.effort.ruleNeeds, [.room], rfl,
    fun need hneed => Classical.not_not.2 (hrule _ need hneed),
    fun hnew : "gripper" ∉ next.registry.names => hnew hold⟩, rfl⟩
  exact ⟨hsetsUp, hduplicate, hunchanged _ hduplicate⟩

end JointGuard
