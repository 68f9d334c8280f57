import JointGuard.Proofs.Enforce.Saturation

/-! # Saturating several times

Saturation into a band is a clamp of the value, whatever the order of the ends, if an end that is
NaN counts as none.  Clamps are closed under composition, and a clamp made twice is made once.  So
saturating into several bands, one after the other, is one clamp, and to do it all again changes
nothing (`same_saturateAll`). -/

namespace JointGuard
open Floating

/-- Raises a number to the low end and then lowers it to the high end. -/
structure Clamp where
  low : ℚ
  high : ℚ

namespace Clamp

def apply (clamp : Clamp) (x : ℚ) : ℚ := min (max x clamp.low) clamp.high

/-- One clamp after another is a clamp, even if their ranges are apart. -/
def andThen (first second : Clamp) : Clamp where
  low := max first.low second.low
  high := min (max first.high second.low) second.high

theorem apply_andThen (first second : Clamp) (x : ℚ) :
    (first.andThen second).apply x = second.apply (first.apply x) := by
  rw [apply, apply, apply, andThen, max_min_distrib_right, max_assoc, min_assoc]

theorem apply_apply (clamp : Clamp) (x : ℚ) : clamp.apply (clamp.apply x) = clamp.apply x := by
  rw [apply, apply, max_min_distrib_right, max_assoc, max_self, min_assoc,
    min_eq_right (le_max_left clamp.high clamp.low)]

/-- Every number is in its range. -/
def whole : Clamp := ⟨-beyond, beyond⟩

theorem apply_whole {x : ℚ} (hx : |x| ≤ beyond) : whole.apply x = x := by
  obtain ⟨hlow, hhigh⟩ := abs_le.1 hx
  rw [apply, whole, max_eq_left hlow, min_eq_left hhigh]

end Clamp

namespace Band

/-- What saturation into a band does to values. -/
def clamp (band : Band) : Clamp where
  low := if band.low.isNaN then -beyond else value band.low
  high := if band.high.isNaN then beyond else value band.high

variable {band : Band} {x : Float}

theorem isNaN_saturate :
    (band.saturate x).isNaN ↔ x.isNaN ∧ band.low.isNaN ∧ band.high.isNaN :=
  JointGuard.isNaN_saturate

theorem value_raise_clamp (hx : ¬x.isNaN) :
    value (raise x band.low) = max (value x) band.clamp.low := by
  by_cases hlow : band.low.isNaN
  · have hbeyond : -beyond ≤ value x := (abs_le.1 (abs_value_le x)).1
    rw [raise_eq_left hx fun h => (lt_iff.1 h).2.1 hlow, clamp, if_pos hlow, max_eq_left hbeyond]
  · rw [value_raise hx hlow, clamp, if_neg hlow]

theorem value_lower_clamp (hx : ¬x.isNaN) :
    value (lower x band.high) = min (value x) band.clamp.high := by
  by_cases hhigh : band.high.isNaN
  · have hbeyond : value x ≤ beyond := (abs_le.1 (abs_value_le x)).2
    rw [lower_eq_left (.inl hhigh), clamp, if_pos hhigh, min_eq_left hbeyond]
  · rw [value_lower hx hhigh, clamp, if_neg hhigh]

theorem value_saturate (hx : ¬x.isNaN) :
    value (band.saturate x) = band.clamp.apply (value x) := by
  have hraise : ¬(raise x band.low).isNaN := fun h => hx (isNaN_raise.1 h).1
  rw [saturate, JointGuard.saturate, value_lower_clamp hraise, value_raise_clamp hx, Clamp.apply]

/-- NaN acts as a number below the low end, or above the high end if that is the only one. -/
theorem exists_value_saturate (hx : x.isNaN) (h : ¬(band.saturate x).isNaN) :
    ∃ v, |v| ≤ beyond ∧ value (band.saturate x) = band.clamp.apply v := by
  have hbeyond : |beyond| ≤ beyond := (abs_of_pos beyond_pos).le
  have hends : -beyond ≤ beyond := (neg_nonpos.2 beyond_pos.le).trans beyond_pos.le
  have hraise : raise x band.low = band.low := raise_eq_right (.inl hx)
  by_cases hlow : band.low.isNaN
  · have hhigh : ¬band.high.isNaN := fun hhigh => h (isNaN_saturate.2 ⟨hx, hlow, hhigh⟩)
    refine ⟨beyond, hbeyond, ?_⟩
    have hend : value band.high ≤ beyond := (abs_le.1 (abs_value_le _)).2
    rw [saturate, JointGuard.saturate, hraise, lower_eq_right hhigh fun h => (lt_iff.1 h).1 hlow,
      Clamp.apply, clamp, if_pos hlow, if_neg hhigh,
      max_eq_left hends, min_eq_right hend]
  · refine ⟨-beyond, (abs_neg beyond).trans_le hbeyond, ?_⟩
    have hend : -beyond ≤ value band.low := (abs_le.1 (abs_value_le _)).1
    rw [saturate, JointGuard.saturate, hraise, value_lower_clamp hlow, Clamp.apply, clamp,
      if_neg hlow, max_eq_right hend]

def saturateAll (bands : List Band) (x : Float) : Float :=
  bands.foldl (fun x band => band.saturate x) x

/-- The clamp that several bands make together. -/
def composed : List Band → Clamp
  | [] => .whole
  | band :: bands => band.clamp.andThen (composed bands)

theorem isNaN_saturateAll {bands : List Band} {x : Float} : (saturateAll bands x).isNaN ↔
    x.isNaN ∧ ∀ band ∈ bands, band.low.isNaN ∧ band.high.isNaN := by
  induction bands generalizing x with
  | nil => simp [saturateAll]
  | cons band bands ih =>
    rw [saturateAll, List.foldl_cons, ← saturateAll, ih, isNaN_saturate, List.forall_mem_cons,
      and_assoc]

theorem value_saturateAll (bands : List Band) {x : Float} (hx : ¬x.isNaN) :
    value (saturateAll bands x) = (composed bands).apply (value x) := by
  induction bands generalizing x with
  | nil => exact (Clamp.apply_whole (abs_value_le x)).symm
  | cons band bands ih =>
    have hnext : ¬(band.saturate x).isNaN := fun h => hx (isNaN_saturate.1 h).1
    rw [saturateAll, List.foldl_cons, ← saturateAll, ih hnext, value_saturate hx, composed,
      Clamp.apply_andThen]

/-- Whatever comes in, a number that comes out is a clamped one. -/
theorem exists_value_saturateAll (bands : List Band) {x : Float}
    (h : ¬(saturateAll bands x).isNaN) :
    ∃ v, |v| ≤ beyond ∧ value (saturateAll bands x) = (composed bands).apply v := by
  by_cases hx : x.isNaN
  · induction bands generalizing x with
    | nil => exact absurd hx h
    | cons band bands ih =>
      rw [saturateAll, List.foldl_cons, ← saturateAll] at h ⊢
      by_cases hnext : (band.saturate x).isNaN
      · -- both ends are NaN, and the band lets everything through
        obtain ⟨-, hlow, hhigh⟩ := isNaN_saturate.1 hnext
        have hclamp : band.clamp = .whole := by rw [clamp, if_pos hlow, if_pos hhigh, Clamp.whole]
        obtain ⟨v, hv, hvalue⟩ := ih h hnext
        refine ⟨v, hv, ?_⟩
        rw [hvalue, composed, Clamp.apply_andThen, hclamp, Clamp.apply_whole hv]
      · obtain ⟨v, hv, hvalue⟩ := exists_value_saturate hx hnext
        refine ⟨v, hv, ?_⟩
        rw [value_saturateAll bands hnext, hvalue, composed, Clamp.apply_andThen]
  · exact ⟨value x, abs_value_le x, value_saturateAll bands hx⟩

theorem same_saturateAll (bands : List Band) (x : Float) :
    Same (saturateAll bands (saturateAll bands x)) (saturateAll bands x) := by
  by_cases h : (saturateAll bands x).isNaN
  · exact .inr ⟨isNaN_saturateAll.2 ⟨h, (isNaN_saturateAll.1 h).2⟩, h⟩
  · obtain ⟨v, -, hvalue⟩ := exists_value_saturateAll bands h
    refine same_of_value_eq (fun htwice => h (isNaN_saturateAll.1 htwice).1) h ?_
    rw [value_saturateAll bands h, hvalue, Clamp.apply_apply]

end Band

end JointGuard
