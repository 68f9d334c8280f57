import JointGuard.Decimal.Shortest
import JointGuard.Proofs.Decimal.Bits
import JointGuard.Proofs.Floating.Rounding

/-! # The shortest decimal reads back

Every decimal in the basin of a number is rounded to the number, so that no two numbers share a
shortest decimal.  The comparisons of a basin are between whole numbers; they compare quarters of
the last place. -/

namespace JointGuard.Decimal
open Floating

theorem pow_toNat {b : ℚ} (hb : b ≠ 0) (k : ℤ) : b ^ k.toNat = b ^ k * b ^ (-k).toNat := by
  rw [← zpow_natCast, ← zpow_natCast, ← zpow_add₀ hb]
  congr 1
  omega

namespace Basin

/-- The gap to the lower end, in quarters of the last place. -/
def gapBelow (m : ℕ) (e : ℤ) : ℕ := if isNarrowBelow m e then 1 else 2

section
variable {m count : ℕ} {e place : ℤ} {x : ℚ} {negative : Bool}

/-- The last place on the scale on which a number is compared with decimals. -/
def lastPlace (e place : ℤ) : ℕ := 2 ^ e.toNat * 10 ^ (-place).toNat

theorem lastPlace_pos (e place : ℤ) : 0 < lastPlace e place := by
  rw [lastPlace]
  positivity

theorem quarters_eq (a : ℕ) (e place : ℤ) :
    a * (1 <<< e.toNat) * Nat.pow 10 (-place).toNat = a * lastPlace e place := by
  rw [Nat.one_shiftLeft, Nat.pow_eq, lastPlace, mul_assoc]

theorem point_eq (hx : count * 10 ^ place = x * 2 ^ e) :
    ((count * Nat.pow 10 place.toNat * (4 <<< (-e).toNat) : ℕ) : ℚ) =
      4 * x * lastPlace e place := by
  rw [Nat.shiftLeft_eq, Nat.pow_eq, lastPlace]
  push_cast
  calc (count : ℚ) * 10 ^ place.toNat * (4 * 2 ^ (-e).toNat)
      = 4 * (count * 10 ^ place) * 10 ^ (-place).toNat * 2 ^ (-e).toNat := by
        rw [pow_toNat (by norm_num) place]
        ring
    _ = 4 * x * (2 ^ e.toNat * 10 ^ (-place).toNat) := by
        rw [hx, pow_toNat two_ne_zero e]
        ring

theorem quarters_le_point_iff (hx : count * 10 ^ place = x * 2 ^ e) (a : ℕ) :
    a * (1 <<< e.toNat) * Nat.pow 10 (-place).toNat ≤
      count * Nat.pow 10 place.toNat * (4 <<< (-e).toNat) ↔ (a : ℚ) ≤ 4 * x := by
  rw [quarters_eq, ← Nat.cast_le (α := ℚ), point_eq hx, Nat.cast_mul,
    mul_le_mul_iff_of_pos_right (by exact_mod_cast lastPlace_pos e place)]

theorem point_le_quarters_iff (hx : count * 10 ^ place = x * 2 ^ e) (a : ℕ) :
    count * Nat.pow 10 place.toNat * (4 <<< (-e).toNat) ≤
      a * (1 <<< e.toNat) * Nat.pow 10 (-place).toNat ↔ 4 * x ≤ a := by
  rw [quarters_eq, ← Nat.cast_le (α := ℚ), point_eq hx, Nat.cast_mul,
    mul_le_mul_iff_of_pos_right (by exact_mod_cast lastPlace_pos e place)]

/-- A decimal of a basin in units of the last place: no end of the basin if the mantissa is odd. -/
theorem bounds_of_holds (hm : m ≠ 0) (h : (around m e).holds count place)
    (hx : count * 10 ^ place = x * 2 ^ e) :
    (4 * m - gapBelow m e ≤ 4 * x ∧ 4 * x ≤ 4 * m + 2) ∧
      (Even m ∨ 4 * m - gapBelow m e < 4 * x ∧ 4 * x < 4 * m + 2) := by
  have hgap : gapBelow m e ≤ 4 * m := by
    rw [gapBelow]
    split <;> omega
  have hlow : ((4 * m - gapBelow m e : ℕ) : ℚ) = 4 * m - gapBelow m e := by
    rw [Nat.cast_sub hgap]
    push_cast
    rfl
  have hhigh : ((4 * m + 2 : ℕ) : ℚ) = 4 * m + 2 := by
    push_cast
    rfl
  rw [← hlow, ← hhigh, ← quarters_le_point_iff hx, ← point_le_quarters_iff hx, Nat.even_iff,
    ← not_le, ← not_le, ← quarters_le_point_iff hx, ← point_le_quarters_iff hx, not_le, not_le]
  by_cases heven : m % 2 = 0
  · simp only [holds, around, heven, decide_true, if_true, Bool.and_eq_true,
      decide_eq_true_eq] at h
    exact ⟨h, .inl heven⟩
  · simp only [holds, around, heven, decide_false, Bool.false_eq_true, if_false,
      Bool.and_eq_true, decide_eq_true_eq] at h
    exact ⟨⟨h.1.le, h.2.le⟩, .inr h⟩

/-- Below the first number of a binade the last place is half as large. -/
theorem toGrid_below_binade (he : -1074 < e) (hlow : 2 ^ 52 - 1 / 4 ≤ x) (hhigh : x < 2 ^ 52) :
    toGrid (x * 2 ^ e) = 2 ^ 52 * 2 ^ e := by
  have hround : halfEven (2 * x) = 2 ^ 53 := by
    apply halfEven_eq_of_abs_le
    · push_cast
      rw [abs_le]
      constructor <;> linarith
    · exact fun _ => by decide
  have hhalf : x * 2 ^ e = 2 * x * 2 ^ (e - 1) := by
    rw [zpow_sub_one₀ two_ne_zero]
    ring
  rw [hhalf, toGrid_mul_zpow (by linarith) (by linarith) (.inl ⟨by linarith, by omega⟩), hround,
    zpow_sub_one₀ two_ne_zero]
  push_cast
  ring

theorem gapBelow_le (m : ℕ) (e : ℤ) : gapBelow m e ≤ 2 := by
  rw [gapBelow]
  split <;> omega

theorem gapBelow_binadeStart (he : -1074 < e) : gapBelow Binary64.binadeStart e = 1 := by
  rw [gapBelow, if_pos]
  simp only [isNarrowBelow, decide_true, Bool.true_and, decide_eq_true_eq]
  exact he

/-- A decimal of the basin is rounded to the number. -/
theorem toGrid_of_holds (hcanonical : (Binary64.finite negative m e).IsCanonical) (hm : m ≠ 0)
    (h : (around m e).holds count place) : toGrid (count * 10 ^ place) = m * 2 ^ e := by
  obtain ⟨hlt, he, hfull⟩ := hcanonical
  obtain ⟨x, hx⟩ : ∃ x : ℚ, count * 10 ^ place = x * 2 ^ e :=
    ⟨count * 10 ^ place / 2 ^ e, (div_mul_cancel₀ _ (by positivity)).symm⟩
  obtain ⟨⟨hlow, hhigh⟩, hends⟩ := bounds_of_holds hm h hx
  have hone : (1 : ℚ) ≤ m := by exact_mod_cast Nat.one_le_iff_ne_zero.2 hm
  have hle : (m : ℚ) + 1 ≤ 2 ^ 53 := by exact_mod_cast hlt
  have hgap : (gapBelow m e : ℚ) ≤ 2 := by exact_mod_cast gapBelow_le m e
  rw [hx]
  by_cases hunit : 2 ^ 52 ≤ x ∧ -1074 ≤ e ∨ e = -1074
  · have hround : halfEven x = m := by
      apply halfEven_eq_of_abs_le
      · rw [Int.cast_natCast, abs_le]
        constructor <;> linarith
      · intro htie
        rw [Int.cast_natCast] at htie
        rcases hends with heven | ⟨hlow', hhigh'⟩
        · exact_mod_cast heven
        · have : |x - m| < 1 / 2 := abs_lt.2 ⟨by linarith, by linarith⟩
          linarith
    rw [toGrid_mul_zpow (by linarith) (by linarith) hunit, hround, Int.cast_natCast]
  · have hleast : -1074 < e := lt_of_le_of_ne he fun h => hunit (.inr h.symm)
    have hsmall : x < 2 ^ 52 := lt_of_not_ge fun h => hunit (.inl ⟨h, he⟩)
    obtain rfl : m = Binary64.binadeStart := by
      have hge := hfull.resolve_right hleast.ne'
      have hlt : (m : ℚ) < 2 ^ 52 + 1 := by linarith
      exact le_antisymm (Nat.lt_succ_iff.1 (by exact_mod_cast hlt)) hge
    rw [gapBelow_binadeStart hleast, Binary64.binadeStart_eq] at hlow
    push_cast at hlow
    rw [toGrid_below_binade hleast (by linarith) hsmall, Binary64.binadeStart_eq]
    push_cast
    rfl

end

end Basin

theorem inFull_eq (m : ℕ) (e : ℤ) :
    ((inFull m e).1 : ℚ) * 10 ^ (inFull m e).2 = m * 2 ^ e := by
  rw [inFull]
  split
  · rename_i he
    rw [Nat.shiftLeft_eq]
    push_cast
    rw [mul_one, ← zpow_natCast, Int.toNat_of_nonneg he]
  · rename_i he
    have hten : (10 : ℚ) ^ e = 5 ^ e * 2 ^ e := by
      rw [← mul_zpow]
      norm_num
    rw [Nat.pow_eq, hten]
    push_cast
    rw [← zpow_natCast, Int.toNat_of_nonneg (by omega)]
    rw [mul_assoc, ← mul_assoc (5 ^ (-e)), ← zpow_add₀ (by norm_num), neg_add_cancel, zpow_zero,
      one_mul]

/-- The shortest decimal reads back. -/
theorem toGrid_shortest {negative : Bool} {m : ℕ} {e : ℤ}
    (hcanonical : (Binary64.finite negative m e).IsCanonical) (hm : m ≠ 0) :
    toGrid ((shortest m e).1 * 10 ^ (shortest m e).2) = m * 2 ^ e := by
  simp only [shortest]
  cases hsearch : (Basin.around m e).search 20 (topPlace ((m.log2 + 1 : ℕ) + e)) with
  | some found => exact Basin.toGrid_of_holds hcanonical hm (Basin.holds_of_search hsearch)
  | none =>
    rw [Option.getD_none, inFull_eq]
    exact toGrid_natMantissa hcanonical.1.le hcanonical.2.1

end JointGuard.Decimal
