import JointGuard.Joint.Period
import JointGuard.Proofs.Floating.Arithmetic

/-! # The length of a period

A period is at most about `2 ^ 64` seconds long, so its length is a finite number, and one of at
least a nanosecond has a length above zero.  Whole seconds and fraction are rounded apart, but a
longer period is never shorter in seconds (`inSeconds_mono`). -/

namespace JointGuard.Period
open Floating

variable {period : Period}

/-- The period is not empty. -/
def IsPositive (period : Period) : Prop := 0 < period.seconds.toNat ∨ 0 < period.nanos.toNat

instance (period : Period) : Decidable period.IsPositive := inferInstanceAs (Decidable (_ ∨ _))

theorem value_wholeSeconds_le (period : Period) : value period.seconds.toFloat ≤ 2 ^ (64 : ℤ) := by
  have hle : (period.seconds.toNat : ℚ) ≤ 2 ^ (64 : ℤ) := by
    exact_mod_cast period.seconds.toNat_lt.le
  rw [value_uint64]
  exact rounded_le_zpow (by norm_num) (by norm_num) hle

theorem value_wholeSeconds_nonneg (period : Period) : 0 ≤ value period.seconds.toFloat := by
  rw [value_uint64]
  exact rounded_nonneg (Nat.cast_nonneg _)

theorem value_wholeSeconds_pos (h : 0 < period.seconds.toNat) :
    0 < value period.seconds.toFloat := by
  have hone : (2 : ℚ) ^ (0 : ℤ) ≤ period.seconds.toNat := by exact_mod_cast h
  rw [value_uint64]
  exact lt_of_lt_of_le (by positivity) (zpow_le_rounded (by norm_num) (by norm_num) hone)

theorem isFinite_wholeSeconds (period : Period) : period.seconds.toFloat.isFinite := by
  apply isFinite_of_abs_le (not_isNaN_uint64 _) (show (64 : ℤ) < 1024 by norm_num)
  rw [abs_of_nonneg (value_wholeSeconds_nonneg period)]
  exact value_wholeSeconds_le period

theorem isFinite_billion : (1e9 : Float).isFinite := by decide +kernel

theorem value_billion : value 1e9 = 10 ^ 9 := by
  have hunpack : (1e9 : Float).toModel.unpack =
      .finite .positive (10 ^ 9 * 2 ^ 23) (-23) (by norm_num) := rfl
  rw [value_of_unpack hunpack]
  norm_num

theorem value_billion_ne_zero : value 1e9 ≠ 0 := by
  rw [value_billion]
  norm_num

theorem value_nanos (period : Period) : value period.nanos.toFloat = period.nanos.toNat := by
  have hlt : period.nanos.toNat < 2 ^ 32 := period.nanos.toNat_lt
  rw [value_uint32, rounded_natCast (by omega)]

theorem isFinite_nanos (period : Period) : period.nanos.toFloat.isFinite := by
  have hle : (period.nanos.toNat : ℚ) ≤ 2 ^ (32 : ℤ) := by
    exact_mod_cast period.nanos.toNat_lt.le
  apply isFinite_of_abs_le (not_isNaN_uint32 _) (show (32 : ℤ) < 1024 by norm_num)
  rwa [value_nanos, Nat.abs_cast]

theorem value_fraction (period : Period) :
    value (period.nanos.toFloat / 1e9) = rounded (period.nanos.toNat / 10 ^ 9) := by
  rw [value_div (isFinite_nanos period) isFinite_billion value_billion_ne_zero, value_nanos,
    value_billion]

theorem value_fraction_le (period : Period) :
    value (period.nanos.toFloat / 1e9) ≤ 2 ^ (0 : ℤ) := by
  rw [value_fraction]
  apply rounded_le_zpow (by norm_num) (by norm_num)
  rw [zpow_zero, div_le_one (by norm_num)]
  exact_mod_cast period.nanos_lt.le

theorem value_fraction_nonneg (period : Period) : 0 ≤ value (period.nanos.toFloat / 1e9) := by
  rw [value_fraction]
  exact rounded_nonneg (by positivity)

theorem value_fraction_pos (h : 0 < period.nanos.toNat) :
    0 < value (period.nanos.toFloat / 1e9) := by
  have hone : (1 : ℚ) ≤ period.nanos.toNat := by exact_mod_cast h
  have hlow : (2 : ℚ) ^ (-30 : ℤ) ≤ period.nanos.toNat / 10 ^ 9 := by
    rw [le_div_iff₀ (by norm_num)]
    exact le_trans (by norm_num) hone
  rw [value_fraction]
  exact lt_of_lt_of_le (by positivity) (zpow_le_rounded (by norm_num) (by norm_num) hlow)

theorem isFinite_fraction (period : Period) : (period.nanos.toFloat / 1e9).isFinite := by
  have hnan := not_isNaN_div (isFinite_nanos period) isFinite_billion value_billion_ne_zero
  apply isFinite_of_abs_le hnan (show (0 : ℤ) < 1024 by norm_num)
  rw [abs_of_nonneg (value_fraction_nonneg period)]
  exact value_fraction_le period

theorem value_inSeconds (period : Period) : value period.inSeconds =
    rounded (value period.seconds.toFloat + value (period.nanos.toFloat / 1e9)) :=
  value_add (isFinite_wholeSeconds period) (isFinite_fraction period)

theorem value_inSeconds_nonneg (period : Period) : 0 ≤ value period.inSeconds := by
  rw [value_inSeconds]
  exact rounded_nonneg
    (add_nonneg (value_wholeSeconds_nonneg period) (value_fraction_nonneg period))

theorem isFinite_inSeconds (period : Period) : period.inSeconds.isFinite := by
  have hle : value period.seconds.toFloat + value (period.nanos.toFloat / 1e9) ≤ 2 ^ (65 : ℤ) :=
    (add_le_add (value_wholeSeconds_le period) (value_fraction_le period)).trans (by norm_num)
  have hnan : ¬period.inSeconds.isNaN :=
    not_isNaN_add (isFinite_wholeSeconds period) (isFinite_fraction period)
  apply isFinite_of_abs_le hnan (show (65 : ℤ) < 1024 by norm_num)
  rw [abs_of_nonneg (value_inSeconds_nonneg period), value_inSeconds]
  exact rounded_le_zpow (by norm_num) (by norm_num) hle

/-- Rounding loses no positive period. -/
theorem value_inSeconds_pos (h : period.IsPositive) : 0 < value period.inSeconds := by
  have hseconds := value_wholeSeconds_nonneg period
  have hfraction := value_fraction_nonneg period
  rw [value_inSeconds]
  rcases h with h | h
  · calc 0 < value period.seconds.toFloat := value_wholeSeconds_pos h
      _ = rounded (value period.seconds.toFloat) :=
        (rounded_value (isFinite_wholeSeconds period)).symm
      _ ≤ _ := rounded_mono (by linarith)
  · calc 0 < value (period.nanos.toFloat / 1e9) := value_fraction_pos h
      _ = rounded (value (period.nanos.toFloat / 1e9)) :=
        (rounded_value (isFinite_fraction period)).symm
      _ ≤ _ := rounded_mono (by linarith)

/-- The exact length. -/
def inNanos (period : Period) : ℕ := period.seconds.toNat * 10 ^ 9 + period.nanos.toNat

/-- Not even the longest fraction is rounded up to a whole second. -/
theorem value_fraction_lt_one (period : Period) : value (period.nanos.toFloat / 1e9) < 1 := by
  have hlast : rounded ((2 ^ 30 - 1 : ℤ) * 2 ^ (-30 : ℤ)) = (2 ^ 30 - 1 : ℤ) * 2 ^ (-30 : ℤ) := by
    apply rounded_of_toGrid (toGrid_mantissa (by norm_num) (by norm_num))
    exact le_trans (by norm_num [abs_le]) (zpow_lt_beyond (e := 0) (by norm_num)).le
  have hnanos : (period.nanos.toNat : ℚ) + 1 ≤ 10 ^ 9 := by exact_mod_cast period.nanos_lt
  rw [value_fraction]
  calc rounded (period.nanos.toNat / 10 ^ 9)
      ≤ rounded ((2 ^ 30 - 1 : ℤ) * 2 ^ (-30 : ℤ)) := by
        apply rounded_mono
        rw [div_le_iff₀ (by norm_num)]
        norm_num
        linarith
    _ < 1 := by
        rw [hlast]
        norm_num

/-- The fraction does not carry a period over the next whole second. -/
theorem value_inSeconds_le {longer : Period} (h : period.seconds.toNat < longer.seconds.toNat) :
    value period.inSeconds ≤ value longer.seconds.toFloat := by
  have hfraction := value_fraction_nonneg period
  have hlt := value_fraction_lt_one period
  have hle : (period.seconds.toNat : ℚ) + 1 ≤ longer.seconds.toNat := by exact_mod_cast h
  rw [value_inSeconds, value_uint64, value_uint64]
  rcases lt_or_ge period.seconds.toNat (2 ^ 53) with hsmall | hlarge
  · rw [rounded_natCast hsmall.le]
    exact rounded_mono (by linarith)
  · exact (rounded_natCast_add_le hlarge hfraction hlt).trans (rounded_mono (by linarith))

theorem inSeconds_mono {longer : Period} (h : period.inNanos ≤ longer.inNanos) :
    period.inSeconds ≤ longer.inSeconds := by
  have hnanos := period.nanos_lt
  have hlonger := longer.nanos_lt
  refine le_iff.2 ⟨not_isNaN_of_isFinite period.isFinite_inSeconds,
    not_isNaN_of_isFinite longer.isFinite_inSeconds, ?_⟩
  rcases lt_or_ge period.seconds.toNat longer.seconds.toNat with hlt | hge
  · calc value period.inSeconds ≤ value longer.seconds.toFloat := value_inSeconds_le hlt
      _ = rounded (value longer.seconds.toFloat) :=
        (rounded_value (isFinite_wholeSeconds longer)).symm
      _ ≤ rounded (value longer.seconds.toFloat + value (longer.nanos.toFloat / 1e9)) :=
        rounded_mono (by linarith [value_fraction_nonneg longer])
      _ = value longer.inSeconds := (value_inSeconds longer).symm
  · have hseconds : period.seconds = longer.seconds := by
      apply UInt64.toNat_inj.1
      simp only [inNanos] at h
      omega
    have hle : (period.nanos.toNat : ℚ) ≤ longer.nanos.toNat := by
      simp only [inNanos, hseconds] at h
      exact_mod_cast (by omega : period.nanos.toNat ≤ longer.nanos.toNat)
    have hfraction : value (period.nanos.toFloat / 1e9) ≤ value (longer.nanos.toFloat / 1e9) := by
      rw [value_fraction, value_fraction]
      exact rounded_mono (div_le_div_of_nonneg_right hle (by norm_num))
    rw [value_inSeconds, value_inSeconds, hseconds]
    exact rounded_mono (by linarith)

end JointGuard.Period
