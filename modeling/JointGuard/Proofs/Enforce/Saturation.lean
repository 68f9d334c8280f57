import JointGuard.Enforce.Saturate
import JointGuard.Proofs.Floating.Arithmetic

/-! # Laws of saturation

Raising is the maximum and lowering the minimum of the values, as long as neither is NaN; NaN passes
only where both are.  A saturated value is therefore never above a high end that is a number, and
not below the low end unless the ends are inverted. -/

namespace JointGuard
open Floating

section
variable {x low high bound : Float}

theorem raise_eq_left (hx : ¬x.isNaN) (h : ¬x < low) : raise x low = x := by
  have hcond : ¬(x.isNaN || decide (x < low)) := by
    rw [Bool.or_eq_true, decide_eq_true_iff]
    exact not_or.2 ⟨hx, h⟩
  exact if_neg hcond

theorem raise_eq_right (h : x.isNaN ∨ x < low) : raise x low = low := by
  have hcond : x.isNaN || decide (x < low) := by
    rwa [Bool.or_eq_true, decide_eq_true_iff]
  exact if_pos hcond

theorem raise_of_le (h : x ≤ low) (hzero : value low ≠ 0) : raise x low = low := by
  by_cases hlt : x < low
  · exact raise_eq_right (.inr hlt)
  · have hge := (Floating.not_lt (not_isNaN_left h) (not_isNaN_right h)).1 hlt
    rw [raise_eq_left (not_isNaN_left h) hlt, eq_of_le_of_ge hge h hzero]

theorem raise_of_ge (h : low ≤ x) : raise x low = x :=
  raise_eq_left (not_isNaN_right h)
    ((Floating.not_lt (not_isNaN_right h) (not_isNaN_left h)).2 h)

theorem isNaN_raise : (raise x low).isNaN ↔ x.isNaN ∧ low.isNaN := by
  by_cases hx : x.isNaN
  · rw [raise_eq_right (.inl hx)]
    exact (and_iff_right hx).symm
  · by_cases h : x < low
    · rw [raise_eq_right (.inr h)]
      exact iff_of_false (lt_iff.1 h).2.1 (fun h => hx h.1)
    · rw [raise_eq_left hx h]
      exact iff_of_false hx (fun h => hx h.1)

theorem value_raise (hx : ¬x.isNaN) (hlow : ¬low.isNaN) :
    value (raise x low) = max (value x) (value low) := by
  by_cases h : x < low
  · rw [raise_eq_right (.inr h), max_eq_right (lt_iff.1 h).2.2.le]
  · rw [raise_eq_left hx h, max_eq_left (le_iff.1 ((Floating.not_lt hx hlow).1 h)).2.2]

theorem le_raise_right (hlow : ¬low.isNaN) : low ≤ raise x low := by
  by_cases hx : x.isNaN
  · rw [raise_eq_right (.inl hx)]
    exact Floating.le_refl hlow
  · refine le_iff.2 ⟨hlow, fun h => hx (isNaN_raise.1 h).1, ?_⟩
    rw [value_raise hx hlow]
    exact le_max_right _ _

theorem le_raise_left (hx : ¬x.isNaN) : x ≤ raise x low := by
  by_cases h : x < low
  · rw [raise_eq_right (.inr h)]
    exact Floating.le_of_lt h
  · rw [raise_eq_left hx h]
    exact Floating.le_refl hx

theorem raise_le (hx : x ≤ bound) (hlow : low ≤ bound) : raise x low ≤ bound := by
  by_cases h : x < low
  · rwa [raise_eq_right (.inr h)]
  · rwa [raise_eq_left (not_isNaN_left hx) h]

theorem lower_eq_left (h : high.isNaN ∨ x < high) : lower x high = x := by
  have hcond : high.isNaN || decide (x < high) := by
    rwa [Bool.or_eq_true, decide_eq_true_iff]
  exact if_pos hcond

theorem lower_eq_right (hhigh : ¬high.isNaN) (h : ¬x < high) : lower x high = high := by
  have hcond : ¬(high.isNaN || decide (x < high)) := by
    rw [Bool.or_eq_true, decide_eq_true_iff]
    exact not_or.2 ⟨hhigh, h⟩
  exact if_neg hcond

theorem lower_of_ge (h : high ≤ x) : lower x high = high :=
  lower_eq_right (not_isNaN_left h)
    ((Floating.not_lt (not_isNaN_right h) (not_isNaN_left h)).2 h)

theorem lower_of_le (h : x ≤ high) (hzero : value high ≠ 0) : lower x high = x := by
  by_cases hlt : x < high
  · exact lower_eq_left (.inr hlt)
  · have hge := (Floating.not_lt (not_isNaN_left h) (not_isNaN_right h)).1 hlt
    rw [lower_eq_right (not_isNaN_right h) hlt, eq_of_le_of_ge hge h hzero]

theorem lower_beq_left (h : x ≤ high) : lower x high == x := by
  have hx := not_isNaN_left h
  by_cases hlt : x < high
  · rw [lower_eq_left (.inr hlt)]
    exact beq_of_le_of_ge (Floating.le_refl hx) (Floating.le_refl hx)
  · rw [lower_eq_right (not_isNaN_right h) hlt]
    exact beq_of_le_of_ge ((Floating.not_lt hx (not_isNaN_right h)).1 hlt) h

theorem isNaN_lower : (lower x high).isNaN ↔ x.isNaN ∧ high.isNaN := by
  by_cases hhigh : high.isNaN
  · rw [lower_eq_left (.inl hhigh)]
    exact (and_iff_left hhigh).symm
  · by_cases h : x < high
    · rw [lower_eq_left (.inr h)]
      exact iff_of_false (lt_iff.1 h).1 (fun h => hhigh h.2)
    · rw [lower_eq_right hhigh h]
      exact iff_of_false hhigh (fun h => hhigh h.2)

theorem value_lower (hx : ¬x.isNaN) (hhigh : ¬high.isNaN) :
    value (lower x high) = min (value x) (value high) := by
  by_cases h : x < high
  · rw [lower_eq_left (.inr h), min_eq_left (lt_iff.1 h).2.2.le]
  · rw [lower_eq_right hhigh h, min_eq_right (le_iff.1 ((Floating.not_lt hx hhigh).1 h)).2.2]

theorem lower_le_right (hhigh : ¬high.isNaN) : lower x high ≤ high := by
  by_cases h : x < high
  · rw [lower_eq_left (.inr h)]
    exact Floating.le_of_lt h
  · rw [lower_eq_right hhigh h]
    exact Floating.le_refl hhigh

theorem lower_le_left (hx : ¬x.isNaN) : lower x high ≤ x := by
  by_cases h : high.isNaN ∨ x < high
  · rw [lower_eq_left h]
    exact Floating.le_refl hx
  · obtain ⟨hhigh, hlt⟩ := not_or.1 h
    rw [lower_eq_right hhigh hlt]
    exact (Floating.not_lt hx hhigh).1 hlt

theorem le_lower (hx : bound ≤ x) (hhigh : high.isNaN ∨ bound ≤ high) : bound ≤ lower x high := by
  by_cases h : high.isNaN ∨ x < high
  · rwa [lower_eq_left h]
  · obtain ⟨hnan, hlt⟩ := not_or.1 h
    rw [lower_eq_right hnan hlt]
    exact hhigh.resolve_left hnan

theorem isNaN_saturate : (saturate x low high).isNaN ↔ x.isNaN ∧ low.isNaN ∧ high.isNaN := by
  rw [saturate, isNaN_lower, isNaN_raise, and_assoc]

theorem saturate_le (hhigh : ¬high.isNaN) : saturate x low high ≤ high := lower_le_right hhigh

theorem le_saturate (h : low ≤ high) : low ≤ saturate x low high :=
  le_lower (le_raise_right (not_isNaN_left h)) (.inr h)

/-- What bounds both ends from below bounds the result, even if the ends are inverted. -/
theorem le_saturate_of_le (hlow : bound ≤ low) (hhigh : bound ≤ high) :
    bound ≤ saturate x low high :=
  le_lower (Floating.le_trans hlow (le_raise_right (not_isNaN_right hlow))) (.inr hhigh)

theorem value_saturate (hx : ¬x.isNaN) (hlow : ¬low.isNaN) (hhigh : ¬high.isNaN) :
    value (saturate x low high) = min (max (value x) (value low)) (value high) := by
  have hraise : ¬(raise x low).isNaN := fun h => hx (isNaN_raise.1 h).1
  rw [saturate, value_lower hraise hhigh, value_raise hx hlow]

/-- Saturation grows with the value and with either end, even across inverted ends. -/
theorem saturate_mono {y lowEnd highEnd : Float} (hxy : x ≤ y) (hlow : low ≤ lowEnd)
    (hhigh : high ≤ highEnd) : saturate x low high ≤ saturate y lowEnd highEnd := by
  obtain ⟨hx, hy, hvalue⟩ := le_iff.1 hxy
  obtain ⟨hlownan, hlowEnd, hlowValue⟩ := le_iff.1 hlow
  obtain ⟨hhighnan, hhighEnd, hhighValue⟩ := le_iff.1 hhigh
  refine le_iff.2 ⟨fun h => hx (isNaN_saturate.1 h).1, fun h => hy (isNaN_saturate.1 h).1, ?_⟩
  rw [value_saturate hx hlownan hhighnan, value_saturate hy hlowEnd hhighEnd]
  exact min_le_min (max_le_max hvalue hlowValue) hhighValue

theorem saturate_of_isNaN (hx : x.isNaN) (h : low < high) : saturate x low high = low := by
  rw [saturate, raise_eq_right (.inl hx), lower_eq_left (.inr h)]

/-- Where the ends are inverted the high end wins. -/
theorem saturate_of_inverted (h : high < low) : saturate x low high = high :=
  lower_of_ge (Floating.le_trans (Floating.le_of_lt h) (le_raise_right (lt_iff.1 h).2.1))

theorem raise_raise : raise (raise x low) low = raise x low := by
  by_cases h : x.isNaN ∨ x < low
  · rw [raise_eq_right h, raise, ite_self]
  · obtain ⟨hx, hlt⟩ := not_or.1 h
    rw [raise_eq_left hx hlt, raise_eq_left hx hlt]

/-- What has been saturated is not changed again, whatever the ends are. -/
theorem saturate_saturate : saturate (saturate x low high) low high = saturate x low high := by
  by_cases h : high.isNaN ∨ raise x low < high
  · have hraised : saturate x low high = raise x low := lower_eq_left h
    rw [hraised, saturate, raise_raise, lower_eq_left h]
  · obtain ⟨hhigh, hlt⟩ := not_or.1 h
    have hlowered : saturate x low high = high := lower_eq_right hhigh hlt
    rw [hlowered]
    exact lower_of_ge (le_raise_left hhigh)

end

namespace Band

/-- The ends of the band are on either side of `centre`. -/
structure Surrounds (band : Band) (centre : Float) : Prop where
  low_le : band.low ≤ centre
  le_high : centre ≤ band.high

variable {band : Band} {reach centre x y : Float}

variable (band) in
theorem not_isNaN_saturate (hx : ¬x.isNaN) : ¬(band.saturate x).isNaN :=
  fun h => hx (isNaN_saturate.1 h).1

theorem surrounds_saturate (h : band.low ≤ band.high) : band.Surrounds (band.saturate x) :=
  ⟨le_saturate h, saturate_le (not_isNaN_right h)⟩

theorem Surrounds.value_saturate (h : band.Surrounds centre) (hx : ¬x.isNaN) :
    value (band.saturate x) = min (max (value x) (value band.low)) (value band.high) :=
  JointGuard.value_saturate hx (not_isNaN_left h.low_le) (not_isNaN_right h.le_high)

/-- What lies in the band is kept. -/
theorem Surrounds.saturate_beq (h : band.Surrounds x) : band.saturate x == x := by
  have hx := not_isNaN_right h.low_le
  refine beq_iff.2 ⟨band.not_isNaN_saturate hx, hx, ?_⟩
  rw [h.value_saturate hx, max_eq_left (le_iff.1 h.low_le).2.2,
    min_eq_left (le_iff.1 h.le_high).2.2]

section
variable (hreach : 0.0 ≤ reach)
include hreach

theorem neg_le_self : -reach ≤ reach := by
  obtain ⟨hnan, hnonneg⟩ := zero_le_iff.1 hreach
  rw [le_iff, isNaN_neg, value_neg]
  exact ⟨hnan, hnan, by linarith⟩

/-- Saturating into the band around zero gives a number within it, whatever the value is. -/
theorem saturate_within : -reach ≤ (within reach).saturate x ∧ (within reach).saturate x ≤ reach :=
  ⟨le_saturate (neg_le_self hreach), saturate_le (not_isNaN_right hreach)⟩

omit hreach in
theorem not_isNaN_saturate_within (hreach : ¬reach.isNaN) :
    ¬((within reach).saturate x).isNaN := fun h => hreach (isNaN_saturate.1 h).2.2

omit hreach in
theorem value_saturate_within (hx : ¬x.isNaN) (hreach : ¬reach.isNaN) :
    value ((within reach).saturate x) = min (max (value x) (-value reach)) (value reach) := by
  have hlow : ¬(-reach).isNaN := by rwa [isNaN_neg]
  rw [Band.saturate, within, JointGuard.value_saturate hx hlow hreach, value_neg]

theorem value_saturate_within_nonneg (hx : ¬x.isNaN) (h : 0 ≤ value x) :
    0 ≤ value ((within reach).saturate x) := by
  obtain ⟨hnan, hnonneg⟩ := zero_le_iff.1 hreach
  rw [value_saturate_within hx hnan]
  exact le_min (le_max_of_le_left h) hnonneg

theorem value_saturate_within_nonpos (hx : ¬x.isNaN) (h : value x ≤ 0) :
    value ((within reach).saturate x) ≤ 0 := by
  obtain ⟨hnan, hnonneg⟩ := zero_le_iff.1 hreach
  rw [value_saturate_within hx hnan]
  exact (min_le_left _ _).trans (max_le h (neg_nonpos.2 hnonneg))

/-- NaN goes to the low end. -/
theorem value_saturate_within_of_isNaN (hx : x.isNaN) :
    value ((within reach).saturate x) = -value reach := by
  obtain ⟨hlow, hhigh, hle⟩ := le_iff.1 (neg_le_self hreach)
  rw [Band.saturate, within, JointGuard.saturate, raise_eq_right (.inl hx), value_lower hlow hhigh,
    min_eq_left hle, value_neg]

theorem saturate_within_mono (h : x ≤ y) :
    (within reach).saturate x ≤ (within reach).saturate y := by
  obtain ⟨hx, hy, hle⟩ := le_iff.1 h
  have hnan := not_isNaN_right hreach
  refine le_iff.2 ⟨not_isNaN_saturate_within hnan, not_isNaN_saturate_within hnan, ?_⟩
  rw [value_saturate_within hx hnan, value_saturate_within hy hnan]
  exact min_le_min_right _ (max_le_max_right _ hle)

/-- NaN and the lower infinity go to the low end. -/
theorem saturate_within_least (hx : x.isNaN ∨ value x = -beyond) (y : Float) :
    (within reach).saturate x ≤ (within reach).saturate y := by
  obtain ⟨-, hnan, hle⟩ := le_iff.1 (neg_le_self hreach)
  rw [value_neg] at hle
  have hlow : value ((within reach).saturate x) = -value reach := by
    by_cases hxnan : x.isNaN
    · exact value_saturate_within_of_isNaN hreach hxnan
    · have hbelow : -beyond ≤ -value reach := neg_le_neg (le_of_abs_le (abs_value_le reach))
      rw [value_saturate_within hxnan hnan, hx.resolve_left hxnan, max_eq_right hbelow,
        min_eq_left hle]
  refine le_iff.2 ⟨not_isNaN_saturate_within hnan, not_isNaN_saturate_within hnan, ?_⟩
  rw [hlow, ← value_neg]
  exact (le_iff.1 (saturate_within hreach).1).2.2

theorem isFinite_saturate_within (hfinite : reach.isFinite) :
    ((within reach).saturate x).isFinite := by
  obtain ⟨hlow, hhigh⟩ := saturate_within (x := x) hreach
  have hlow' := (le_iff.1 hlow).2.2
  rw [value_neg] at hlow'
  refine isFinite_iff.2 ⟨not_isNaN_left hhigh, ?_⟩
  exact (abs_le.2 ⟨hlow', (le_iff.1 hhigh).2.2⟩).trans_lt (lt_of_abs_lt (abs_value_lt hfinite))

end

-- A band around zero that has a width: the result is known bit for bit.
section
variable (hreach : 0.0 < reach)
include hreach

theorem saturate_within_of_le (h : x.isNaN ∨ x ≤ -reach) : (within reach).saturate x = -reach := by
  have hpos := (zero_lt_iff.1 hreach).2
  have hraise : raise x (-reach) = -reach := by
    rcases h with hx | hle
    · exact raise_eq_right (.inl hx)
    · exact raise_of_le hle (by rw [value_neg]; exact neg_ne_zero.2 hpos.ne')
  rw [saturate, within, JointGuard.saturate, hraise,
    lower_of_le (neg_le_self (Floating.le_of_lt hreach)) hpos.ne']

theorem saturate_within_of_mem (hlow : -reach ≤ x) (hhigh : x ≤ reach) :
    (within reach).saturate x = x := by
  rw [saturate, within, JointGuard.saturate, raise_of_ge hlow,
    lower_of_le hhigh (zero_lt_iff.1 hreach).2.ne']

theorem saturate_within_of_ge (h : reach ≤ x) : (within reach).saturate x = reach := by
  have hlow : -reach ≤ x := Floating.le_trans (neg_le_self (Floating.le_of_lt hreach)) h
  rw [saturate, within, JointGuard.saturate, raise_of_ge hlow, lower_of_ge h]

omit hreach in
theorem below_or_within_or_above (hreach : ¬reach.isNaN) (x : Float) :
    (x.isNaN ∨ x ≤ -reach) ∨ (-reach ≤ x ∧ x ≤ reach) ∨ reach ≤ x := by
  have hneg : ¬(-reach).isNaN := by rwa [isNaN_neg]
  by_cases hx : x.isNaN
  · exact .inl (.inl hx)
  by_cases hlow : x < -reach
  · exact .inl (.inr (Floating.le_of_lt hlow))
  by_cases hhigh : x < reach
  · exact .inr (.inl ⟨(Floating.not_lt hx hneg).1 hlow, Floating.le_of_lt hhigh⟩)
  · exact .inr (.inr ((Floating.not_lt hx hreach).1 hhigh))

end

end Band

end JointGuard
