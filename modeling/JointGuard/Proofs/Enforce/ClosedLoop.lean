import JointGuard.Proofs.Enforce.HardBand
import JointGuard.Registry.Session

/-! # The closed loop in position mode

A joint that follows its commands is measured, at each tick, where the tick before has sent it.  The
loop keeps the joint in the hard band if the soft band does not end inside it, and otherwise if the
push back is slow enough: at most a quarter of the distance in one period
(`position_stays_in_hardBand`).  The cycles of a session whose joints follow are such a loop
(`Session.exists_ticks_cycles`), so they keep the joint in the band as well
(`IsTame.contains_cycles`). -/

namespace JointGuard
open Floating

structure Tick where
  command : Float
  period : Period

namespace Handle

variable {mode : Mode} {n : Nat}

/-- A tick on a joint that follows: the pending command is set, confined, and carried out. -/
def follow (handle : Handle mode n) (joints : Joints n) (tick : Tick) : Joints n :=
  let pending := joints.update handle.joint (·.withCommand tick.command)
  (handle.enforce tick.period pending).update handle.joint .arrived

/-- The joints after each tick. -/
def loop (handle : Handle mode n) (joints : Joints n) : List Tick → List (Joints n)
  | [] => []
  | tick :: ticks => handle.follow joints tick :: loop handle (handle.follow joints tick) ticks

theorem length_loop (handle : Handle mode n) (joints : Joints n) (ticks : List Tick) :
    (handle.loop joints ticks).length = ticks.length := by
  induction ticks generalizing joints with
  | nil => rfl
  | cons tick ticks ih => rw [loop, List.length_cons, ih, List.length_cons]

/-- One tick more is one state more, reached from the last one. -/
theorem loop_concat (handle : Handle mode n) (joints : Joints n) (ticks : List Tick)
    (tick : Tick) :
    handle.loop joints (ticks ++ [tick]) = handle.loop joints ticks ++
      [handle.follow ((handle.loop joints ticks).getLastD joints) tick] := by
  induction ticks generalizing joints with
  | nil => rfl
  | cons first ticks ih =>
    rw [List.cons_append, loop, ih, loop, List.getLastD_cons, List.cons_append]

theorem follow_joint (handle : Handle mode n) (joints : Joints n) (tick : Tick) :
    let joint := joints.get handle.joint
    let command := handle.rule.command tick.period (joint.withCommand tick.command)
    (handle.follow joints tick).get handle.joint = { joint with position := command, command } := by
  simp [follow, getElem_enforce, JointState.withCommand, JointState.arrived, Vector.get_eq_getElem]

end Handle

namespace Session

variable {mode : Mode} {n : Nat} {label : JointName} {handle : Handle mode n}

/-- The tick that a cycle is for a joint; one that is sent no command keeps the command it has. -/
def tick (session : Session mode n) (joint : Fin n) (period : Period)
    (commands : Vector (Option Float) n) : Tick where
  command := (commands.get joint).getD (session.joints.get joint).command
  period

theorem get_command (session : Session mode n) (joint : Fin n) (period : Period)
    (commands : Vector (Option Float) n) :
    (session.command commands).joints.get joint =
      (session.joints.get joint).withCommand (session.tick joint period commands).command := by
  simp only [command, tick, Vector.get_eq_getElem, Vector.getElem_zipWith]
  cases commands[joint] <;> rfl

/-- With this handle alone and joints that follow, a cycle is a tick of the loop. -/
theorem get_cycle (session : Session mode n)
    (h : session.registry.handles.entries = [(label, handle)]) (period : Period)
    (commands : Vector (Option Float) n) :
    (session.cycle period commands true).joints.get handle.joint =
      (handle.follow session.joints (session.tick handle.joint period commands)).get
        handle.joint := by
  have hcycle : (session.cycle period commands true).joints =
      (handle.enforce period (session.command commands).joints).map .arrived := by
    change (session.registry.enforce period (session.command commands).joints).map
      JointState.arrived = _
    rw [Registry.enforce, h, List.foldl_cons, List.foldl_nil]
  rw [hcycle, Vector.get_eq_getElem, Vector.getElem_map, Handle.getElem_enforce, if_pos rfl,
    ← Vector.get_eq_getElem, session.get_command handle.joint period commands, handle.follow_joint]
  rfl

theorem cycles_succ (session : Session mode n) (count : Nat) (period : Period)
    (commands : Vector (Option Float) n) (follow : Bool) :
    session.cycles (count + 1) period commands follow =
      (session.cycles count period commands follow).cycle period commands follow := by
  rw [cycles, Nat.fold_succ, cycles]

theorem registry_cycles (session : Session mode n) (count : Nat) (period : Period)
    (commands : Vector (Option Float) n) (follow : Bool) :
    (session.cycles count period commands follow).registry = session.registry := by
  induction count with
  | zero => rfl
  | succ count ih => rw [cycles_succ, ← ih]; rfl

/-- Cycles of a session with this handle alone, whose joints follow, end where a loop of as many
ticks ends. -/
theorem exists_ticks_cycles (session : Session mode n)
    (h : session.registry.handles.entries = [(label, handle)]) (count : Nat) (period : Period)
    (commands : Vector (Option Float) n) :
    ∃ ticks : List Tick, ticks.length = count ∧ (∀ tick ∈ ticks, tick.period = period) ∧
      (session.cycles count period commands true).joints.get handle.joint =
        ((handle.loop session.joints ticks).getLastD session.joints).get handle.joint := by
  induction count with
  | zero => exact ⟨[], rfl, by simp, rfl⟩
  | succ count ih =>
    obtain ⟨ticks, hlength, hperiod, hlast⟩ := ih
    set before := session.cycles count period commands true with hbefore
    have hentries : before.registry.handles.entries = [(label, handle)] := by
      rw [hbefore, registry_cycles, h]
    -- a tick reads no joint but its own, where the cycles and the loop agree so far
    have hcycle := before.get_cycle hentries period commands
    rw [handle.follow_joint, hlast, ← handle.follow_joint] at hcycle
    refine ⟨ticks ++ [before.tick handle.joint period commands], by simp [hlength], ?_, ?_⟩
    · simpa [or_imp, forall_and] using ⟨hperiod, rfl⟩
    · rw [cycles_succ, ← hbefore, hcycle, Handle.loop_concat, List.getLastD_concat]

end Session

/-- Limits in force whose numbers are finite and in order, with band ends of a size at which no
distance between them overflows. -/
structure IsTame (hard : HardLimits) (soft : SoftLimits) : Prop where
  hasPosition : hard.hasPosition
  ends : ∀ x ∈ [hard.minPosition, hard.maxPosition, soft.minPosition, soft.maxPosition],
    x.isFinite ∧ |value x| ≤ 2 ^ 1000
  hardBand : hard.minPosition ≤ hard.maxPosition
  softBand : soft.minPosition ≤ soft.maxPosition
  speed : hard.maxVelocity.isFinite ∧ 0.0 ≤ hard.maxVelocity
  gain : soft.positionGain.isFinite ∧ 0.0 < soft.positionGain

/-- The push back takes off at most a quarter of the distance in one period. -/
def IsGentle (soft : SoftLimits) (period : Period) : Prop :=
  value soft.positionGain * value period.inSeconds ≤ 1 / 4

section
variable {n : Nat} {hard : HardLimits} {soft : SoftLimits} {hasVelocity : hard.hasVelocity}
  {position : Float} {period : Period}

/-- Every position in the band is as tame as its ends. -/
theorem IsTame.of_contains (htame : IsTame hard soft) (hposition : hard.contains position) :
    position.isFinite ∧ |value position| ≤ 2 ^ 1000 := by
  obtain ⟨hmin, hmax⟩ := (HardLimits.contains_iff htame.hasPosition).1 hposition
  obtain ⟨-, hlow⟩ := htame.ends hard.minPosition (by simp)
  obtain ⟨-, hhigh⟩ := htame.ends hard.maxPosition (by simp)
  have habs : |value position| ≤ 2 ^ 1000 := by
    rw [abs_le] at hlow hhigh ⊢
    exact ⟨hlow.1.trans (le_iff.1 hmin).2.2, (le_iff.1 hmax).2.2.trans hhigh.2⟩
  have hpow : (2 : ℚ) ^ (1000 : ℤ) = 2 ^ 1000 := zpow_natCast 2 1000
  exact ⟨isFinite_of_abs_le (not_isNaN_left hmax) (by norm_num) (habs.trans_eq hpow.symm), habs⟩

/-- The upper reach of a period does not fall below the hard band. -/
theorem IsTame.minPosition_le_upperReach (htame : IsTame hard soft)
    (hposition : hard.contains position) (hpositive : period.IsPositive)
    (hsafe : hard.maxPosition ≤ soft.maxPosition ∨
      hard.minPosition ≤ soft.maxPosition ∧ IsGentle soft period) :
    hard.minPosition ≤ soft.upperReach hard period.inSeconds position := by
  obtain ⟨hmin, hmax⟩ := (HardLimits.contains_iff htame.hasPosition).1 hposition
  obtain ⟨hfinite, hsize⟩ := htame.of_contains hposition
  obtain ⟨hsoft, hsoftSize⟩ := htame.ends soft.maxPosition (by simp)
  have hseconds := period.isFinite_inSeconds
  have hpos := Period.value_inSeconds_pos hpositive
  by_cases h : soft.maxPosition < position
  · have hbeyond := Floating.le_of_lt h
    obtain ⟨hend, hgentle⟩ := hsafe.resolve_left fun hle =>
      (lt_iff.1 h).2.2.not_ge (le_iff.1 (Floating.le_trans hmax hle)).2.2
    have hdistance := isFinite_sub_of_abs_le hfinite hsoft hsize hsoftSize
    exact Floating.le_trans hend (SoftLimits.softMax_le_upperReach htame.hasPosition htame.gain
      hfinite hsoft hseconds hpos htame.speed.2 htame.speed.1 hdistance hbeyond hgentle)
  · have hbelow := (Floating.not_lt (not_isNaN_of_isFinite hsoft) (not_isNaN_right hmin)).1 h
    exact Floating.le_trans hmin (SoftLimits.le_upperReach htame.hasPosition htame.gain hfinite
      hseconds hpos htame.speed.2 hbelow)

/-- From a position in the hard band the next command is in the band. -/
theorem IsTame.contains_command (htame : IsTame hard soft) (joint : JointState)
    (hposition : hard.contains joint.position) (hpositive : period.IsPositive)
    (hsafe : hard.maxPosition ≤ soft.maxPosition ∨
      hard.minPosition ≤ soft.maxPosition ∧ IsGentle soft period) :
    hard.contains ((Rule.position hard soft hasVelocity).command period joint) := by
  have hreach := htame.minPosition_le_upperReach hposition hpositive hsafe
  rw [contains_command_iff soft hasVelocity htame.hasPosition htame.hardBand]
  exact (Floating.not_lt (not_isNaN_right hreach) (not_isNaN_left hreach)).2 hreach

/-- A tick on a joint in the hard band leaves its command and its position in the band. -/
theorem IsTame.contains_follow (htame : IsTame hard soft) (handle : Handle .position n)
    (hrule : handle.rule = .position hard soft hasVelocity) (joints : Joints n)
    (hposition : hard.contains (joints.get handle.joint).position) (tick : Tick)
    (hpositive : tick.period.IsPositive)
    (hsafe : hard.maxPosition ≤ soft.maxPosition ∨
      hard.minPosition ≤ soft.maxPosition ∧ IsGentle soft tick.period) :
    let joint := (handle.follow joints tick).get handle.joint
    hard.contains joint.command ∧ hard.contains joint.position := by
  have hnext : hard.contains ((Rule.position hard soft hasVelocity).command tick.period
      ((joints.get handle.joint).withCommand tick.command)) :=
    htame.contains_command _ hposition hpositive hsafe
  rw [Handle.follow_joint, hrule]
  exact ⟨hnext, hnext⟩

/-- After each tick of a loop from the hard band, the command and the position are in the band. -/
theorem IsTame.contains_loop (htame : IsTame hard soft) (handle : Handle .position n)
    (hrule : handle.rule = .position hard soft hasVelocity) (joints : Joints n)
    (hstart : hard.contains (joints.get handle.joint).position) (ticks : List Tick)
    (hpositive : ∀ tick ∈ ticks, tick.period.IsPositive)
    (hsafe : hard.maxPosition ≤ soft.maxPosition ∨
      hard.minPosition ≤ soft.maxPosition ∧ ∀ tick ∈ ticks, IsGentle soft tick.period) :
    ∀ state ∈ handle.loop joints ticks,
      hard.contains (state.get handle.joint).command ∧
        hard.contains (state.get handle.joint).position := by
  induction ticks generalizing joints with
  | nil => simp [Handle.loop]
  | cons tick ticks ih =>
    -- the position in the band is the invariant, and what the next tick needs
    have hstep := htame.contains_follow handle hrule joints hstart tick (hpositive tick (by simp))
      (hsafe.imp_right (And.imp_right fun h => h tick (by simp)))
    have hrest := ih (handle.follow joints tick) hstep.2
      (fun later hlater => hpositive later (by simp [hlater]))
      (hsafe.imp_right (And.imp_right fun h later hlater => h later (by simp [hlater])))
    rw [Handle.loop, List.forall_mem_cons]
    exact ⟨hstep, hrest⟩

/-- A joint that starts in the hard band and follows its commands stays there, and so does every
command, whatever commands come in. -/
theorem position_stays_in_hardBand (handle : Handle .position n)
    (hrule : handle.rule = .position hard soft hasVelocity) (htame : IsTame hard soft)
    (joints : Joints n) (hstart : hard.contains (joints.get handle.joint).position)
    (ticks : List Tick) (hpositive : ∀ tick ∈ ticks, tick.period.IsPositive)
    (hsafe : hard.maxPosition ≤ soft.maxPosition ∨
      hard.minPosition ≤ soft.maxPosition ∧ ∀ tick ∈ ticks, IsGentle soft tick.period) :
    (handle.loop joints ticks).length = ticks.length ∧
      ∀ state ∈ handle.loop joints ticks,
        hard.contains (state.get handle.joint).command ∧
          hard.contains (state.get handle.joint).position :=
  ⟨handle.length_loop joints ticks,
    htame.contains_loop handle hrule joints hstart ticks hpositive hsafe⟩

/-- The same of a session with this handle alone, whose joints follow, after any number of
cycles. -/
theorem IsTame.contains_cycles (htame : IsTame hard soft) (session : Session .position n)
    {label : JointName} {handle : Handle .position n}
    (h : session.registry.handles.entries = [(label, handle)])
    (hrule : handle.rule = .position hard soft hasVelocity)
    (hstart : hard.contains (session.joints.get handle.joint).position)
    (hpositive : period.IsPositive)
    (hsafe : hard.maxPosition ≤ soft.maxPosition ∨
      hard.minPosition ≤ soft.maxPosition ∧ IsGentle soft period)
    (count : Nat) (commands : Vector (Option Float) n) :
    hard.contains ((session.cycles count period commands true).joints.get
      handle.joint).position := by
  obtain ⟨ticks, -, hperiod, hlast⟩ := session.exists_ticks_cycles h count period commands
  have hloop := htame.contains_loop handle hrule session.joints hstart ticks
    (fun tick htick => hperiod tick htick ▸ hpositive)
    (hsafe.imp_right (And.imp_right fun hgentle tick htick => hperiod tick htick ▸ hgentle))
  rw [hlast]
  rcases List.mem_cons.1 (List.getLastD_mem_cons (l := handle.loop session.joints ticks)
    (a := session.joints)) with heq | hmem
  · rwa [heq]
  · exact (hloop _ hmem).2

end

def vergeHard : HardLimits := (HardLimits.unlimited.withPosition (-1.0) 1.0).withVelocity 1.0

def vergeSoft : SoftLimits where
  positionGain := 1.0
  velocityGain := 0.0
  minPosition := -0.5
  maxPosition := 0.5

def vergeHandle : Handle .position 1 := .solo (.position vergeHard vergeSoft rfl)

/-- A quarter of a second, the longest period that a gain of one allows. -/
def quarterSecond : Period := ⟨0, 250000000, by decide⟩

theorem value_one : value 1.0 = 1 := by
  have hunpack : (1.0 : Float).toModel.unpack =
      .finite .positive (2 ^ 52) (-52) (by norm_num) := rfl
  rw [value_of_unpack hunpack]
  norm_num

theorem value_quarterSecond : value quarterSecond.inSeconds = 1 / 4 := by
  have hunpack : quarterSecond.inSeconds.toModel.unpack =
      .finite .positive (2 ^ 52) (-54) (by norm_num) := rfl
  rw [value_of_unpack hunpack]
  norm_num

theorem isTame_verge : IsTame vergeHard vergeSoft := by
  have hends : ∀ x ∈ [vergeHard.minPosition, vergeHard.maxPosition, vergeSoft.minPosition,
      vergeSoft.maxPosition], x.isFinite ∧ -1.0 ≤ x ∧ x ≤ 1.0 := by decide +kernel
  refine ⟨rfl, fun x hx => ?_, ?_, ?_, ?_, ?_⟩
  · obtain ⟨hfinite, hlow, hhigh⟩ := hends x hx
    have hlow' := (le_iff.1 hlow).2.2
    have hhigh' := (le_iff.1 hhigh).2.2
    rw [value_neg, value_one] at hlow'
    rw [value_one] at hhigh'
    exact ⟨hfinite, (abs_le.2 ⟨hlow', hhigh'⟩).trans (one_le_pow₀ one_le_two)⟩
  all_goals decide +kernel

/-- No command, then one far below: a loop whose push back is as fast as is allowed. -/
def vergeTicks : List Tick := [⟨0.0 / 0.0, quarterSecond⟩, ⟨-1.0 / 0.0, quarterSecond⟩]

/-- The joint at the upper end of the hard band, beyond the soft band. -/
def vergeStart : Joints 1 := Vector.replicate 1 { position := 1.0 }

theorem verge_stays_in_hardBand :
    vergeHandle.rule = .position vergeHard vergeSoft rfl ∧ IsTame vergeHard vergeSoft ∧
      vergeHard.contains (vergeStart.get vergeHandle.joint).position ∧
      (∀ tick ∈ vergeTicks, tick.period.IsPositive) ∧
      (vergeHard.minPosition ≤ vergeSoft.maxPosition ∧
        ∀ tick ∈ vergeTicks, IsGentle vergeSoft tick.period) ∧
      (vergeHandle.loop vergeStart vergeTicks).length = vergeTicks.length ∧
      ∀ state ∈ vergeHandle.loop vergeStart vergeTicks,
        vergeHard.contains (state.get vergeHandle.joint).command ∧
          vergeHard.contains (state.get vergeHandle.joint).position := by
  have hstart : vergeHard.contains (vergeStart.get vergeHandle.joint).position := by decide +kernel
  have hpositive : ∀ tick ∈ vergeTicks, tick.period.IsPositive := by
    simp only [vergeTicks, List.forall_mem_cons]
    decide
  have hgentle : IsGentle vergeSoft quarterSecond := by
    rw [IsGentle, vergeSoft, value_one, value_quarterSecond, one_mul]
  have hsafe : vergeHard.minPosition ≤ vergeSoft.maxPosition ∧
      ∀ tick ∈ vergeTicks, IsGentle vergeSoft tick.period :=
    ⟨by decide +kernel, by simp [vergeTicks, hgentle]⟩
  exact ⟨rfl, isTame_verge, hstart, hpositive, hsafe,
    position_stays_in_hardBand vergeHandle rfl isTame_verge vergeStart hstart vergeTicks hpositive
      (.inr hsafe)⟩

end JointGuard
