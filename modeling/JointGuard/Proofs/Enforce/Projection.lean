import JointGuard.Decimal.Nearest
import JointGuard.Proofs.Enforce.Saturation

/-! # Saturation as a projection

Saturation keeps what lies between the ends, brings everything else to an end, and changes nothing
the second time.  It never inverts an order, and it gives NaN only if there is no number at all
(`saturate_projects`).  The two ends are not alike: NaN goes to the low end, and of inverted ends
the high one wins. -/

namespace JointGuard
open Floating

/-- The laws of saturation for all values and ends, NaN and inverted ends included.  Only a value
that lies between the ends is kept up to the sign of a zero; all other results are known bit for
bit. -/
theorem saturate_projects (x low high : Float) :
    ((saturate x low high).isNaN ↔ x.isNaN ∧ low.isNaN ∧ high.isNaN) ∧
    (low ≤ high → (low ≤ saturate x low high ∧ saturate x low high ≤ high) ∧
      (low ≤ x ∧ x ≤ high → saturate x low high == x)) ∧
    (x.isNaN ∧ low < high → saturate x low high = low) ∧
    (high < low → saturate x low high = high) ∧
    saturate (saturate x low high) low high = saturate x low high ∧
    ∀ y lowEnd highEnd, x ≤ y → low ≤ lowEnd → high ≤ highEnd →
      saturate x low high ≤ saturate y lowEnd highEnd := by
  refine ⟨isNaN_saturate, fun hends => ?_, ?_, saturate_of_inverted, saturate_saturate, ?_⟩
  · refine ⟨⟨le_saturate hends, saturate_le (not_isNaN_right hends)⟩, ?_⟩
    rintro ⟨hlow, hhigh⟩
    have hinside : (Band.mk low high).Surrounds x := ⟨hlow, hhigh⟩
    exact hinside.saturate_beq
  · rintro ⟨hx, hends⟩
    exact saturate_of_isNaN hx hends
  · intro y lowEnd highEnd hxy hlow hhigh
    exact saturate_mono hxy hlow hhigh

/-- The least number above zero. -/
def leastStep : Float := Float.ofBits 1

/-- Equal zeros of either sign as ends, a value that is NaN, and a range of one step below zero that
is inverted. -/
theorem saturate_projects_edges :
    (-0.0 : Float) ≤ 0.0 ∧ saturate 0.0 (-0.0) 0.0 == 0.0 ∧ (Decimal.nan).isNaN ∧
      -leastStep < leastStep ∧ saturate Decimal.nan (-leastStep) leastStep = -leastStep ∧
      saturate Decimal.nan leastStep (-leastStep) = -leastStep ∧
      ¬(saturate Decimal.nan leastStep Decimal.nan).isNaN ∧
      saturate leastStep leastStep (-leastStep) ≤ saturate leastStep Decimal.infinity 0.0 := by
  have hzeros : (-0.0 : Float) ≤ 0.0 := by decide +kernel
  have hstep : -leastStep < leastStep := by decide +kernel
  have hnan : Decimal.nan.isNaN := by decide +kernel
  have hnumber : ¬leastStep.isNaN := by decide +kernel
  obtain ⟨-, hwithin, -⟩ := saturate_projects 0.0 (-0.0) 0.0
  obtain ⟨-, -, hlow, -⟩ := saturate_projects Decimal.nan (-leastStep) leastStep
  obtain ⟨-, -, -, hhigh, -⟩ := saturate_projects Decimal.nan leastStep (-leastStep)
  obtain ⟨hisNaN, -⟩ := saturate_projects Decimal.nan leastStep Decimal.nan
  obtain ⟨-, -, -, -, -, hmono⟩ := saturate_projects leastStep leastStep (-leastStep)
  exact ⟨hzeros, (hwithin hzeros).2 ⟨hzeros, by decide +kernel⟩, hnan, hstep, hlow ⟨hnan, hstep⟩,
    hhigh hstep, fun h => hnumber (hisNaN.1 h).2.1,
    hmono leastStep Decimal.infinity 0.0 (by decide +kernel) (by decide +kernel)
      (by decide +kernel)⟩

end JointGuard
