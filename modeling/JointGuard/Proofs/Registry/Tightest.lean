import JointGuard.Decimal.Nearest
import JointGuard.Proofs.Enforce.HardBand
import JointGuard.Proofs.Floating.Weight
import JointGuard.Proofs.Registry.Repetition
import Mathlib.Data.Set.Finite.Lattice
import Mathlib.Order.Bounds.Basic

/-! # The tightest viewer

Saturating into several bands around zero, one after the other and in any order, is saturating into
the narrowest of them, bit for bit.  So velocity handles that view one joint act on it as the
tightest of them does alone (`enforce_tightest`). -/

namespace JointGuard
open Floating

namespace Band

variable {least reach : Float}

section
variable (hleast : 0.0 < least) (h : least ≤ reach)
include hleast h

theorem saturate_wide_narrow (x : Float) :
    (within reach).saturate ((within least).saturate x) = (within least).saturate x := by
  have hreach : 0.0 < reach := Floating.lt_of_lt_of_le hleast h
  obtain ⟨hlow, hhigh⟩ := saturate_within (x := x) (Floating.le_of_lt hleast)
  exact saturate_within_of_mem hreach (Floating.le_trans (Floating.neg_le_neg h) hlow)
    (Floating.le_trans hhigh h)

theorem saturate_narrow_wide (x : Float) :
    (within least).saturate ((within reach).saturate x) = (within least).saturate x := by
  have hreach : 0.0 < reach := Floating.lt_of_lt_of_le hleast h
  rcases below_or_within_or_above (zero_lt_iff.1 hreach).1 x with hbelow | ⟨hlow, hhigh⟩ | habove
  · have hbelow' : x.isNaN ∨ x ≤ -least :=
      hbelow.imp_right fun hle => Floating.le_trans hle (Floating.neg_le_neg h)
    rw [saturate_within_of_le hreach hbelow, saturate_within_of_le hleast hbelow',
      saturate_within_of_le hleast (.inr (Floating.neg_le_neg h))]
  · rw [saturate_within_of_mem hreach hlow hhigh]
  · rw [saturate_within_of_ge hreach habove, saturate_within_of_ge hleast h,
      saturate_within_of_ge hleast (Floating.le_trans h habove)]

end

theorem saturateAll_append (bands others : List Band) (x : Float) :
    saturateAll (bands ++ others) x = saturateAll others (saturateAll bands x) :=
  List.foldl_append

section
variable {speeds : List Float} (hleast : 0.0 < least) (h : ∀ speed ∈ speeds, least ≤ speed)
include hleast h

/-- What the narrowest band lets through, the others let through. -/
theorem saturateAll_within_narrow (x : Float) :
    saturateAll (speeds.map within) ((within least).saturate x) = (within least).saturate x := by
  induction speeds with
  | nil => rfl
  | cons speed speeds ih =>
    obtain ⟨hspeed, hspeeds⟩ := List.forall_mem_cons.1 h
    rw [List.map_cons, saturateAll, List.foldl_cons, ← saturateAll,
      saturate_wide_narrow hleast hspeed, ih hspeeds]

/-- What the others do first, the narrowest band hides. -/
theorem saturate_narrow_saturateAll (x : Float) :
    (within least).saturate (saturateAll (speeds.map within) x) = (within least).saturate x := by
  induction speeds generalizing x with
  | nil => rfl
  | cons speed speeds ih =>
    obtain ⟨hspeed, hspeeds⟩ := List.forall_mem_cons.1 h
    rw [List.map_cons, saturateAll, List.foldl_cons, ← saturateAll, ih hspeeds,
      saturate_narrow_wide hleast hspeed]

end

theorem saturateAll_within {speeds : List Float} (hleast : IsLeast {speed | speed ∈ speeds} least)
    (hpos : 0.0 < least) (x : Float) :
    saturateAll (speeds.map within) x = (within least).saturate x := by
  obtain ⟨hmem, hbound⟩ := hleast
  obtain ⟨before, after, rfl⟩ := List.append_of_mem hmem
  have hbefore : ∀ speed ∈ before, least ≤ speed := fun speed h =>
    hbound (List.mem_append_left _ h)
  have hafter : ∀ speed ∈ after, least ≤ speed := fun speed h =>
    hbound (List.mem_append_right _ (.tail _ h))
  rw [List.map_append, List.map_cons, saturateAll_append, saturateAll, List.foldl_cons,
    ← saturateAll, saturate_narrow_saturateAll hpos hbefore,
    saturateAll_within_narrow hpos hafter]

end Band

/-- Of numbers, one is the least. -/
theorem exists_isLeast {numbers : List Float} (hne : numbers ≠ [])
    (hnumbers : ∀ x ∈ numbers, ¬x.isNaN) : ∃ least, IsLeast {x | x ∈ numbers} least := by
  obtain ⟨least, hmem, hle⟩ := Set.exists_min_image {x | x ∈ numbers} value
    (List.finite_toSet numbers) (List.exists_mem_of_ne_nil numbers hne)
  exact ⟨least, hmem, fun x hx => le_iff.2 ⟨hnumbers _ hmem, hnumbers x hx, hle x hx⟩⟩

theorem Rule.band_velocity (rule : Rule .velocity) (period : Period) (joint : JointState) :
    rule.band period joint = .within rule.hard.maxVelocity := by
  cases rule
  rfl

namespace Registry

variable {n : Nat}

/-- The greatest speeds that the viewers of a joint allow it. -/
def speedLimits (registry : Registry .velocity n) (j : Fin n) : List Float :=
  (registry.viewers j).map (·.rule.hard.maxVelocity)

theorem bands_eq_map_within (registry : Registry .velocity n) (period : Period)
    (joints : Joints n) (j : Fin n) :
    registry.bands period joints j = (registry.speedLimits j).map .within := by
  rw [bands, bandsOf, speedLimits, List.map_map]
  exact List.map_congr_left fun handle _ => handle.rule.band_velocity period _

theorem mem_speedLimits_iff {registry : Registry .velocity n} {j : Fin n} {speed : Float} :
    speed ∈ registry.speedLimits j ↔
      ∃ handle ∈ registry.toList, handle.joint = j ∧ handle.rule.hard.maxVelocity = speed := by
  simp [speedLimits, viewers, and_assoc]

section
variable {registry : Registry .velocity n} {j : Fin n}
  (hspeeds : ∀ handle ∈ registry.toList, 0.0 < handle.rule.hard.maxVelocity)
include hspeeds

theorem exists_tightest (hviewed : ∃ handle ∈ registry.toList, handle.joint = j) :
    ∃ tightest, IsLeast {speed | speed ∈ registry.speedLimits j} tightest := by
  obtain ⟨handle, hmem, hjoint⟩ := hviewed
  refine exists_isLeast (List.ne_nil_of_mem (mem_speedLimits_iff.2 ⟨handle, hmem, hjoint, rfl⟩)) ?_
  intro speed hspeed
  obtain ⟨other, hother, -, rfl⟩ := mem_speedLimits_iff.1 hspeed
  exact (zero_lt_iff.1 (hspeeds other hother)).1

theorem command_enforce_tightest {tightest : Float}
    (htightest : IsLeast {speed | speed ∈ registry.speedLimits j} tightest) (period : Period)
    (joints : Joints n) : 0.0 < tightest ∧ ((registry.enforce period joints).get j).command =
      (Band.within tightest).saturate (joints.get j).command := by
  obtain ⟨handle, hmem, -, hspeed⟩ := mem_speedLimits_iff.1 htightest.1
  have hpos : 0.0 < tightest := hspeed ▸ hspeeds handle hmem
  refine ⟨hpos, ?_⟩
  rw [command_enforce, bands_eq_map_within, Band.saturateAll_within htightest hpos]

end

theorem enforce_eq_of_perm_velocity {registry other : Registry .velocity n}
    (hspeeds : ∀ handle ∈ registry.toList, 0.0 < handle.rule.hard.maxVelocity)
    (hperm : other.toList.Perm registry.toList) (period : Period) (joints : Joints n) :
    other.enforce period joints = registry.enforce period joints := by
  have hother : ∀ handle ∈ other.toList, 0.0 < handle.rule.hard.maxVelocity :=
    fun handle hmem => hspeeds handle (hperm.mem_iff.1 hmem)
  apply enforce_eq_of_viewed hperm
  intro j hviewed
  obtain ⟨tightest, htightest⟩ := exists_tightest hspeeds hviewed
  have hsame :
      {speed | speed ∈ other.speedLimits j} = {speed | speed ∈ registry.speedLimits j} := by
    ext speed
    change speed ∈ other.speedLimits j ↔ speed ∈ registry.speedLimits j
    simp only [mem_speedLimits_iff, hperm.mem_iff]
  rw [get_enforce_eq_withCommand other, get_enforce_eq_withCommand registry,
    (command_enforce_tightest hspeeds htightest period joints).2,
    (command_enforce_tightest hother (hsame ▸ htightest) period joints).2]

end Registry

/-- After a tick, a viewed joint has its command saturated into the band of the least of the speeds
that its viewers allow.  The command is then within each of them, and the order of registration
does not matter. -/
theorem enforce_tightest {n : Nat} (registry : Registry .velocity n)
    (hspeeds : ∀ handle ∈ registry.toList, 0.0 < handle.rule.hard.maxVelocity) (period : Period)
    (joints : Joints n) :
    let next := registry.enforce period joints
    (∀ j, (∃ handle ∈ registry.toList, handle.joint = j) →
      ∃ tightest, IsLeast {speed | speed ∈ registry.speedLimits j} tightest ∧
        (next.get j).command = saturate (joints.get j).command (-tightest) tightest) ∧
    (∀ handle ∈ registry.toList,
      -handle.rule.hard.maxVelocity ≤ (next.get handle.joint).command ∧
        (next.get handle.joint).command ≤ handle.rule.hard.maxVelocity) ∧
    ∀ other : Registry .velocity n, other.toList.Perm registry.toList →
      other.enforce period joints = next := by
  intro next
  refine ⟨?_, ?_, ?_⟩
  · intro j hviewed
    obtain ⟨tightest, htightest⟩ := Registry.exists_tightest hspeeds hviewed
    exact ⟨tightest, htightest,
      (Registry.command_enforce_tightest hspeeds htightest period joints).2⟩
  · intro handle hmem
    obtain ⟨tightest, htightest⟩ := Registry.exists_tightest hspeeds ⟨handle, hmem, rfl⟩
    obtain ⟨hpos, hcommand⟩ :=
      Registry.command_enforce_tightest hspeeds htightest period joints
    have hle : tightest ≤ handle.rule.hard.maxVelocity :=
      htightest.2 (Registry.mem_speedLimits_iff.2 ⟨handle, hmem, rfl, rfl⟩)
    obtain ⟨hlow, hhigh⟩ :=
      Band.saturate_within (x := (joints.get handle.joint).command) (Floating.le_of_lt hpos)
    rw [show (next.get handle.joint).command = _ from hcommand]
    exact ⟨Floating.le_trans (Floating.neg_le_neg hle) hlow, Floating.le_trans hhigh hle⟩
  · exact fun other hperm => Registry.enforce_eq_of_perm_velocity hspeeds hperm period joints

/-- A part of the drive that stands no more than a speed. -/
def drivePart (name : String) (speed : Float) : Handle .velocity 1 :=
  { Handle.solo (.velocity (HardLimits.unlimited.withVelocity speed) rfl) with name := name }

def motor : Handle .velocity 1 := drivePart "motor" 2.0

def gear : Handle .velocity 1 := drivePart "gear" 1.0

def belt : Handle .velocity 1 := drivePart "belt" Decimal.infinity

def driveRegistry (parts : List (Handle .velocity 1)) : Registry .velocity 1 :=
  ((Session.start .velocity 1 4).run (parts.map .register)).registry

/-- One wheel that has no command. -/
def driveJoints : Joints 1 := Vector.replicate 1 { command := 0.0 / 0.0 }

/-- The gear decides. -/
theorem enforce_tightest_drive :
    let registry := driveRegistry [motor, gear, belt]
    let next := registry.enforce millisecond driveJoints
    (∀ handle ∈ registry.toList, 0.0 < handle.rule.hard.maxVelocity) ∧
      (∃ handle ∈ registry.toList, handle.joint = 0) ∧
      (driveRegistry [belt, gear, motor]).toList.Perm registry.toList ∧
      (∃ tightest, IsLeast {speed | speed ∈ registry.speedLimits 0} tightest ∧
        (next.get 0).command = saturate (0.0 / 0.0) (-tightest) tightest) ∧
      (next.get 0).command = -1.0 ∧ -1.0 ≤ (next.get 0).command ∧
      (driveRegistry [belt, gear, motor]).enforce millisecond driveJoints = next := by
  intro registry next
  have hlist : registry.toList = [motor, gear, belt] := rfl
  have hreversed : (driveRegistry [belt, gear, motor]).toList = [belt, gear, motor] := rfl
  have hspeeds : ∀ handle ∈ registry.toList, 0.0 < handle.rule.hard.maxVelocity := by
    rw [hlist]
    simp only [List.forall_mem_cons]
    exact ⟨by decide +kernel, by decide +kernel, by decide +kernel, by simp⟩
  have hgear : gear ∈ registry.toList := by simp [hlist]
  have hviewed : ∃ handle ∈ registry.toList, handle.joint = 0 := ⟨gear, hgear, rfl⟩
  have hperm : (driveRegistry [belt, gear, motor]).toList.Perm registry.toList := by
    rw [hlist, hreversed]
    exact List.reverse_perm [motor, gear, belt]
  obtain ⟨hcommand, hwithin, horder⟩ := enforce_tightest registry hspeeds millisecond driveJoints
  exact ⟨hspeeds, hviewed, hperm, hcommand 0 hviewed, by decide +kernel, (hwithin gear hgear).1,
    horder _ hperm⟩

end JointGuard
