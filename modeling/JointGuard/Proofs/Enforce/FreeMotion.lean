import JointGuard.Decimal.Nearest
import JointGuard.Proofs.Enforce.VelocityReach

/-! # Free motion inside the soft band

Between the ends of its soft band nothing forces a joint to move: the allowed band surrounds the
position, and a saturated command lies between the position and the pending command.  A longer
period widens the band on both sides and leads no less near to the pending command
(`enforce_inside_softBand`). -/

namespace JointGuard
open Floating

/-- Not beyond either of two numbers, whichever of them is the greater. -/
def IsBetween (x first second : Float) : Prop :=
  first ≤ x ∧ x ≤ second ∨ second ≤ x ∧ x ≤ first

theorem IsBetween.beq {x first second : Float} (h : IsBetween x first second)
    (heq : second == first) : x == first := by
  obtain ⟨hsecond, hfirst, hvalue⟩ := beq_iff.1 heq
  rw [IsBetween, le_iff, le_iff, le_iff, le_iff] at h
  rw [beq_iff]
  grind

namespace Band

variable {band narrow wide : Band} {centre x : Float}

/-- Saturation moves a value towards what the band surrounds, and not past it. -/
theorem Surrounds.isBetween_saturate (h : band.Surrounds centre) (hx : ¬x.isNaN) :
    IsBetween (band.saturate x) centre x := by
  have hvalue := h.value_saturate hx
  have hnumber := band.not_isNaN_saturate hx
  have hlow := le_iff.1 h.low_le
  have hhigh := le_iff.1 h.le_high
  rw [IsBetween, le_iff, le_iff, le_iff, le_iff]
  grind

/-- A wider band moves it less. -/
theorem Surrounds.isBetween_saturate_wide (h : narrow.Surrounds centre)
    (hlow : wide.low ≤ narrow.low) (hhigh : narrow.high ≤ wide.high) (hx : ¬x.isNaN) :
    IsBetween (wide.saturate x) (narrow.saturate x) x := by
  have hwide : wide.Surrounds centre :=
    ⟨Floating.le_trans hlow h.low_le, Floating.le_trans h.le_high hhigh⟩
  have hnarrowValue := h.value_saturate hx
  have hwideValue := hwide.value_saturate hx
  have hnarrowNumber := narrow.not_isNaN_saturate hx
  have hwideNumber := wide.not_isNaN_saturate hx
  have hends := le_iff.1 h.low_le
  have hends' := le_iff.1 h.le_high
  rw [le_iff] at hlow hhigh
  rw [IsBetween, le_iff, le_iff, le_iff, le_iff]
  grind

end Band

section
variable {position speed seconds longer : Float} (hposition : position.isFinite)
  (hspeed : ¬speed.isNaN) (hseconds : seconds.isFinite) (hpositive : 0 < value seconds)
  (hlonger : longer.isFinite) (hle : seconds ≤ longer)
include hspeed hseconds hpositive hlonger hle

/-- The way that is covered in either period. -/
theorem not_isNaN_ways : ¬(speed * seconds).isNaN ∧ ¬(speed * longer).isNaN := by
  have hpositive' : 0 < value longer := hpositive.trans_le (le_iff.1 hle).2.2
  exact ⟨not_isNaN_mul_left hspeed hseconds hpositive.ne',
    not_isNaN_mul_left hspeed hlonger hpositive'.ne'⟩

include hposition

theorem travel_up_mono (h : 0 ≤ value speed) :
    position + speed * seconds ≤ position + speed * longer := by
  obtain ⟨hshort, hlong⟩ := not_isNaN_ways hspeed hseconds hpositive hlonger hle
  exact add_le_add_of_isFinite hposition (Floating.mul_le_mul_left h hle hshort hlong)

theorem travel_down_anti (h : value speed ≤ 0) :
    position + speed * longer ≤ position + speed * seconds := by
  obtain ⟨hshort, hlong⟩ := not_isNaN_ways hspeed hseconds hpositive hlonger hle
  exact add_le_add_of_isFinite hposition (Floating.mul_le_mul_left_of_nonpos h hle hshort hlong)

end

/-- A joint in its hard band and between the ends of its soft band, with limits that let it move. -/
structure IsFree (hard : HardLimits) (soft : SoftLimits) (position : Float) : Prop where
  hasPosition : hard.hasPosition
  speed : 0.0 ≤ hard.maxVelocity
  gain : soft.positionGain.isFinite ∧ 0.0 < soft.positionGain
  finite : position.isFinite
  inHard : hard.contains position
  inSoft : soft.minPosition ≤ position ∧ position ≤ soft.maxPosition

namespace IsFree

variable {hard : HardLimits} {soft : SoftLimits} {position seconds longer : Float}

theorem speeds_signs (h : IsFree hard soft position) :
    value (soft.speeds hard position).low ≤ 0 ∧ 0 ≤ value (soft.speeds hard position).high := by
  rw [SoftLimits.speeds_eq_confined h.hasPosition]
  exact ⟨Pull.value_confined_nonpos h.gain h.finite h.speed h.inSoft.1,
    Pull.value_confined_nonneg h.gain h.finite h.speed h.inSoft.2⟩

theorem reach_surrounds (h : IsFree hard soft position) (hseconds : seconds.isFinite)
    (hpositive : 0 < value seconds) : (soft.reach hard seconds position).Surrounds position := by
  obtain ⟨hmin, hmax⟩ := (HardLimits.contains_iff h.hasPosition).1 h.inHard
  obtain ⟨hdown, hup⟩ := h.speeds_signs
  rw [SoftLimits.reach_of_hasPosition _ _ _ _ h.hasPosition]
  constructor
  case low_le =>
    exact raise_le (SoftLimits.lowerReach_le h.speed h.finite hseconds hpositive hdown) hmin
  case le_high =>
    exact le_lower (SoftLimits.self_le_upperReach h.speed h.finite hseconds hpositive hup)
      (.inr hmax)

/-- A longer period widens the allowed band on both sides. -/
theorem reach_wider (h : IsFree hard soft position) (hseconds : seconds.isFinite)
    (hpositive : 0 < value seconds) (hlonger : longer.isFinite) (hle : seconds ≤ longer) :
    (soft.reach hard longer position).low ≤ (soft.reach hard seconds position).low ∧
      (soft.reach hard seconds position).high ≤ (soft.reach hard longer position).high := by
  obtain ⟨hmin, hmax⟩ := (HardLimits.contains_iff h.hasPosition).1 h.inHard
  obtain ⟨hdown, hup⟩ := h.speeds_signs
  obtain ⟨⟨hlow, -⟩, hhigh, -⟩ := soft.speeds_within h.speed position
  have hlower : soft.lowerReach hard longer position ≤ soft.lowerReach hard seconds position :=
    travel_down_anti h.finite (not_isNaN_right hlow) hseconds hpositive hlonger hle hdown
  have hupper : soft.upperReach hard seconds position ≤ soft.upperReach hard longer position :=
    travel_up_mono h.finite (not_isNaN_right hhigh) hseconds hpositive hlonger hle hup
  simp only [SoftLimits.reach_of_hasPosition _ _ _ _ h.hasPosition]
  constructor
  · exact raise_le (Floating.le_trans hlower (le_raise_left (not_isNaN_right hlower)))
      (le_raise_right (not_isNaN_left hmin))
  · exact le_lower (Floating.le_trans (lower_le_left (not_isNaN_left hupper)) hupper)
      (.inr (lower_le_right (not_isNaN_right hmax)))

theorem contains_command {hasVelocity : hard.hasVelocity} {joint : JointState} {period : Period}
    (h : IsFree hard soft joint.position) (hpositive : period.IsPositive) :
    hard.contains ((Rule.position hard soft hasVelocity).command period joint) := by
  obtain ⟨hmin, hmax⟩ := (HardLimits.contains_iff h.hasPosition).1 h.inHard
  have hreach := SoftLimits.self_le_upperReach h.speed h.finite period.isFinite_inSeconds
    (Period.value_inSeconds_pos hpositive) h.speeds_signs.2
  rw [contains_command_iff soft hasVelocity h.hasPosition (Floating.le_trans hmin hmax)]
  exact (Floating.not_lt (not_isNaN_right hreach) (not_isNaN_left hmin)).2
    (Floating.le_trans hmin hreach)

end IsFree

/-- Inside its soft band a joint is sent from where it is towards the pending command and not past
it, within the hard band.  A longer period sends it no less far. -/
theorem enforce_inside_softBand {n : Nat} {hard : HardLimits} {soft : SoftLimits}
    {hasVelocity : hard.hasVelocity} (handle : Handle .position n)
    (hrule : handle.rule = .position hard soft hasVelocity) (joints : Joints n)
    (hfree : IsFree hard soft (joints.get handle.joint).position)
    (hcommand : ¬(joints.get handle.joint).command.isNaN) {period : Period}
    (hpositive : period.IsPositive) :
    let joint := joints.get handle.joint
    let written := handle.written period joints
    IsBetween written joint.position joint.command ∧ hard.contains written ∧
      (joint.command == joint.position → written == joint.position) ∧
      ∀ longer : Period,
        period.inNanos ≤ longer.inNanos ∨ period.inSeconds ≤ longer.inSeconds →
        IsBetween (handle.written longer joints) written joint.command := by
  intro joint written
  have hwritten (period : Period) : handle.written period joints =
      (soft.reach hard period.inSeconds joint.position).saturate joint.command :=
    Handle.written_position hrule period joints
  have hseconds := period.isFinite_inSeconds
  have hpos := Period.value_inSeconds_pos hpositive
  have hsurrounds := hfree.reach_surrounds hseconds hpos
  have hbetween : IsBetween written joint.position joint.command := by
    rw [show written = _ from hwritten period]
    exact hsurrounds.isBetween_saturate hcommand
  refine ⟨hbetween, ?_, hbetween.beq, ?_⟩
  · rw [show written = _ from handle.written_eq period joints, hrule]
    exact hfree.contains_command hpositive
  · intro longer hlonger
    have hle : period.inSeconds ≤ longer.inSeconds := hlonger.elim Period.inSeconds_mono id
    obtain ⟨hlow, hhigh⟩ := hfree.reach_wider hseconds hpos longer.isFinite_inSeconds hle
    rw [hwritten longer, show written = _ from hwritten period]
    exact hsurrounds.isBetween_saturate_wide hlow hhigh hcommand

def openSoft : SoftLimits where
  positionGain := 10.0
  velocityGain := 0.0
  minPosition := -Decimal.infinity
  maxPosition := 2.0

def openHard : HardLimits := (HardLimits.unlimited.withPosition (-1.0) 1.0).withVelocity 0.5

def openHandle : Handle .position 1 := .solo (.position openHard openSoft rfl)

/-- A joint in the middle of its hard band, told to leave it. -/
def openJoints : Joints 1 := Vector.replicate 1 { position := 0.25, command := 5.0 }

def threeSeconds : Period := { oneSecond with seconds := .ofNat 3 }

/-- The joint goes towards its command, and in a longer period as far as the hard band allows. -/
theorem enforce_inside_softBand_open :
    openHandle.rule = .position openHard openSoft rfl ∧ IsFree openHard openSoft 0.25 ∧
      ¬(5.0 : Float).isNaN ∧ oneSecond.IsPositive ∧
      oneSecond.inNanos ≤ threeSeconds.inNanos ∧
      openHandle.written oneSecond openJoints = 0.75 ∧
      openHandle.written threeSeconds openJoints = 1.0 ∧
      IsBetween (openHandle.written oneSecond openJoints) 0.25 5.0 ∧
      IsBetween (openHandle.written threeSeconds openJoints)
        (openHandle.written oneSecond openJoints) 5.0 := by
  have hfree : IsFree openHard openSoft 0.25 :=
    { hasPosition := rfl
      speed := by decide +kernel
      gain := by decide +kernel
      finite := by decide +kernel
      inHard := by decide +kernel
      inSoft := by decide +kernel }
  have hcommand : ¬(5.0 : Float).isNaN := by decide +kernel
  have hperiod : oneSecond.IsPositive := by decide
  have hlonger : oneSecond.inNanos ≤ threeSeconds.inNanos := by decide
  obtain ⟨hbetween, -, -, hfurther⟩ :=
    enforce_inside_softBand openHandle rfl openJoints hfree hcommand hperiod
  exact ⟨rfl, hfree, hcommand, hperiod, hlonger, by decide +kernel, by decide +kernel, hbetween,
    hfurther threeSeconds (.inl hlonger)⟩

end JointGuard
