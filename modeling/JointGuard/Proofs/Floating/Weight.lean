import JointGuard.Proofs.Floating.Arithmetic

/-! # Monotone operations

With infinities that outweigh whatever meets them, every sum and every product that is a number is
one rounding of exact arithmetic (`value_add_eq`, `value_mul_eq`).  So sums grow with their terms
and products with a factor as long as the other one is not negative, whatever overflows on the
way. -/

namespace JointGuard.Floating
open Float.Model UnpackedFloat

section
variable {x : ℚ}

theorem rounded_of_beyond_le (h : beyond ≤ x) : rounded x = beyond := by
  have hself : rounded beyond = beyond := by
    rw [show beyond = 2 ^ (1024 : ℤ) by rw [beyond, ← zpow_natCast, Nat.cast_ofNat]]
    exact rounded_zpow (by norm_num) le_rfl
  exact le_antisymm (rounded_le_beyond x) (hself.symm.trans_le (rounded_mono h))

theorem rounded_of_le_neg_beyond (h : x ≤ -beyond) : rounded x = -beyond := by
  rw [← neg_neg x, rounded_neg, rounded_of_beyond_le (le_neg.2 h)]

theorem rounded_of_beyond_le_abs (h : beyond ≤ |x|) : rounded x = SignType.sign x * beyond := by
  have hbeyond := beyond_pos
  rcases le_abs.1 h with h | h
  · rw [rounded_of_beyond_le h, sign_pos (hbeyond.trans_le h), SignType.coe_one, one_mul]
  · have hneg : x < 0 := by linarith
    rw [rounded_of_le_neg_beyond (le_neg.2 h), sign_neg hneg, SignType.coe_neg_one, neg_one_mul]

end

/-- The value of a number where the infinities are so far out that no finite term makes up for
them, and no finite factor but zero brings them back. -/
def weight (x : Float) : ℚ := if x.isFinite then value x else value x * 2 ^ (1074 : ℤ)

section
variable {x y z w : Float}

theorem weight_of_isFinite (hx : x.isFinite) : weight x = value x := if_pos hx

theorem weight_of_infinite (hx : ¬x.isFinite) : weight x = value x * 2 ^ (1074 : ℤ) := if_neg hx

@[simp] theorem weight_neg (x : Float) : weight (-x) = -weight x := by
  rw [weight, weight, isFinite_neg, value_neg, neg_mul]
  split <;> rfl

@[simp] theorem weight_abs (x : Float) : weight x.abs = |weight x| := by
  rw [weight, weight, isFinite_abs, value_abs]
  split
  · rfl
  · rw [abs_mul, abs_of_pos (show (0 : ℚ) < 2 ^ (1074 : ℤ) by positivity)]

@[simp] theorem sign_weight (x : Float) : SignType.sign (weight x) = SignType.sign (value x) := by
  have hfar : SignType.sign ((2 : ℚ) ^ (1074 : ℤ)) = 1 := sign_pos (by positivity)
  rw [weight]
  split
  · rfl
  · rw [sign_mul, hfar, mul_one]

theorem weight_nonneg (h : 0 ≤ value x) : 0 ≤ weight x := by
  rwa [← sign_nonneg_iff, sign_weight, sign_nonneg_iff]

theorem weight_nonpos (h : value x ≤ 0) : weight x ≤ 0 := by
  rwa [← sign_nonpos_iff, sign_weight, sign_nonpos_iff]

theorem two_mul_beyond_le_weight (h : value x = beyond) : 2 * beyond ≤ weight x := by
  have hinf : ¬x.isFinite := fun hx => (lt_of_abs_lt (abs_value_lt hx)).ne h
  have htwo : (2 : ℚ) ≤ 2 ^ (1074 : ℤ) := by
    simpa using zpow_le_zpow_right₀ (a := (2 : ℚ)) one_le_two (show (1 : ℤ) ≤ 1074 by norm_num)
  rw [weight_of_infinite hinf, h, mul_comm]
  exact mul_le_mul_of_nonneg_left htwo beyond_pos.le

theorem weight_le_neg_two_mul_beyond (h : value x = -beyond) : weight x ≤ -(2 * beyond) := by
  rw [le_neg, ← weight_neg]
  exact two_mul_beyond_le_weight (by rw [value_neg, h, neg_neg])

/-- The value of an infinity. -/
theorem value_of_infinite (hx : ¬x.isNaN) (hinf : ¬x.isFinite) :
    value x = beyond ∨ value x = -beyond :=
  (abs_eq beyond_pos.le).1 (abs_value_of_infinite hx hinf)

theorem weight_mono (h : x ≤ y) : weight x ≤ weight y := by
  obtain ⟨hx, hy, hle⟩ := le_iff.1 h
  have hbeyond := beyond_pos
  by_cases hxfin : x.isFinite <;> by_cases hyfin : y.isFinite
  · exact (weight_of_isFinite hxfin).trans_le (hle.trans_eq (weight_of_isFinite hyfin).symm)
  · -- what is not below a finite number is the upper infinity
    obtain ⟨hlow, hhigh⟩ := abs_lt.1 (abs_value_lt hxfin)
    have hend := (value_of_infinite hy hyfin).resolve_right (by linarith)
    rw [weight_of_isFinite hxfin]
    linarith [two_mul_beyond_le_weight hend]
  · obtain ⟨hlow, hhigh⟩ := abs_lt.1 (abs_value_lt hyfin)
    have hend := (value_of_infinite hx hxfin).resolve_left (by linarith)
    rw [weight_of_isFinite hyfin]
    linarith [weight_le_neg_two_mul_beyond hend]
  · rw [weight_of_infinite hxfin, weight_of_infinite hyfin]
    exact mul_le_mul_of_nonneg_right hle (by positivity)

theorem neg_beyond_le_weight (hx : value x ≠ -beyond) : -beyond ≤ weight x := by
  by_cases hnan : x.isNaN
  · exact (neg_nonpos.2 beyond_pos.le).trans (weight_nonneg (value_of_isNaN hnan).ge)
  by_cases hfinite : x.isFinite
  · rw [weight_of_isFinite hfinite]
    exact (abs_lt.1 (abs_value_lt hfinite)).1.le
  · have hend := (value_of_infinite hnan hfinite).resolve_right hx
    linarith [two_mul_beyond_le_weight hend, beyond_pos]

/-- An infinite term decides a sum. -/
theorem beyond_le_weight_add (h : ¬(x + y).isNaN) (hy : value y = beyond) :
    beyond ≤ weight x + weight y := by
  have hne : value x ≠ -beyond := by
    intro hx
    refine h (isNaN_add.2 (.inr (.inr ⟨?_, ?_⟩)))
    · rw [hx, abs_neg, abs_of_pos beyond_pos]
    · rw [hx, hy, neg_neg]
  linarith [neg_beyond_le_weight hne, two_mul_beyond_le_weight hy]

protected theorem add_comm (x y : Float) : x + y = y + x := by
  have hadd (u v : UnpackedFloat) :
      UnpackedFloat.add Format.binary64 u v = UnpackedFloat.add Format.binary64 v u := by
    cases u <;> cases v <;> try rfl
    case infinity.infinity s t => cases s <;> cases t <;> rfl
    case zero.zero s t => cases s <;> cases t <;> rfl
    case finite.finite s m e hm t n f hn =>
      simp only [UnpackedFloat.add, min_comm e f, add_comm]
  change Float.ofModel (Float.Model.pack _) = Float.ofModel (Float.Model.pack _)
  rw [hadd]

theorem not_isNaN_sub_right (hx : ¬x.isNaN) (hy : y.isFinite) : ¬(x - y).isNaN := by
  rw [Floating.sub_eq_add_neg, Floating.add_comm]
  exact not_isNaN_add_left (by rwa [isFinite_neg]) hx

theorem rounded_weight_add_of_infinite (h : ¬(x + y).isNaN) (hy : ¬y.isFinite) :
    rounded (weight x + weight y) = value y := by
  have hynan : ¬y.isNaN := fun hnan => h (isNaN_add.2 (.inr (.inl hnan)))
  rcases value_of_infinite hynan hy with hend | hend
  · rw [hend, rounded_of_beyond_le (beyond_le_weight_add h hend)]
  · -- the same for the other infinity, turned round
    have hneg : value (-y) = beyond := by rw [value_neg, hend, neg_neg]
    have hsum : ¬(-x + -y).isNaN := by
      rwa [isNaN_add, isNaN_neg, isNaN_neg, value_neg, value_neg, abs_neg, neg_inj, ← isNaN_add]
    have hle := beyond_le_weight_add hsum hneg
    rw [weight_neg, weight_neg, ← neg_add] at hle
    rw [hend, rounded_of_le_neg_beyond (le_neg.1 hle)]

/-- A sum that is a number is the rounded sum of the weights. -/
theorem value_add_eq (h : ¬(x + y).isNaN) : value (x + y) = rounded (weight x + weight y) := by
  by_cases hy : y.isFinite
  · by_cases hx : x.isFinite
    · rw [value_add hx hy, weight_of_isFinite hx, weight_of_isFinite hy]
    · rw [Floating.add_comm] at h ⊢
      have hxnan : ¬x.isNaN := fun hnan => h (isNaN_add.2 (.inr (.inl hnan)))
      rw [value_add_of_infinite_right h (abs_value_of_infinite hxnan hx), add_comm (weight x),
        rounded_weight_add_of_infinite h hx]
  · have hynan : ¬y.isNaN := fun hnan => h (isNaN_add.2 (.inr (.inl hnan)))
    rw [value_add_of_infinite_right h (abs_value_of_infinite hynan hy),
      rounded_weight_add_of_infinite h hy]

protected theorem add_le_add (hxy : x ≤ y) (hzw : z ≤ w) (h : ¬(x + z).isNaN)
    (h' : ¬(y + w).isNaN) : x + z ≤ y + w := by
  refine le_iff.2 ⟨h, h', ?_⟩
  rw [value_add_eq h, value_add_eq h']
  exact rounded_mono (add_le_add (weight_mono hxy) (weight_mono hzw))

/-- A finite number takes any other one, so that nothing is lost on the way. -/
theorem add_le_add_of_isFinite (hz : z.isFinite) (h : x ≤ y) : z + x ≤ z + y :=
  Floating.add_le_add (Floating.le_refl (not_isNaN_of_isFinite hz)) h
    (not_isNaN_add_left hz (not_isNaN_left h)) (not_isNaN_add_left hz (not_isNaN_right h))

theorem add_le_self (hx : x.isFinite) (hy : ¬y.isNaN) (h : value y ≤ 0) : x + y ≤ x := by
  have hsum := not_isNaN_add_left hx hy
  refine le_iff.2 ⟨hsum, not_isNaN_of_isFinite hx, ?_⟩
  calc value (x + y) = rounded (weight x + weight y) := value_add_eq hsum
    _ ≤ rounded (value x) := by
      apply rounded_mono
      linarith [weight_nonpos h, weight_of_isFinite hx]
    _ = value x := rounded_value hx

theorem self_le_add (hx : x.isFinite) (hy : ¬y.isNaN) (h : 0 ≤ value y) : x ≤ x + y := by
  have hsum := not_isNaN_add_left hx hy
  refine le_iff.2 ⟨not_isNaN_of_isFinite hx, hsum, ?_⟩
  calc value x = rounded (value x) := (rounded_value hx).symm
    _ ≤ rounded (weight x + weight y) := by
      apply rounded_mono
      linarith [weight_nonneg h, weight_of_isFinite hx]
    _ = value (x + y) := (value_add_eq hsum).symm

protected theorem neg_le_neg (h : x ≤ y) : -y ≤ -x := by
  rw [le_iff, isNaN_neg, isNaN_neg, value_neg, value_neg]
  exact ⟨not_isNaN_right h, not_isNaN_left h, neg_le_neg (le_iff.1 h).2.2⟩

theorem neg_le_zero (h : 0.0 ≤ x) : -x ≤ 0.0 :=
  Floating.le_trans (Floating.neg_le_neg h) (by decide +kernel)

protected theorem sub_le_sub_left (hxy : x ≤ y) (h : ¬(z - x).isNaN) (h' : ¬(z - y).isNaN) :
    z - y ≤ z - x := by
  rw [Floating.sub_eq_add_neg z x] at h ⊢
  rw [Floating.sub_eq_add_neg z y] at h' ⊢
  have hz : ¬z.isNaN := fun hnan => h (isNaN_add.2 (.inl hnan))
  exact Floating.add_le_add (Floating.le_refl hz) (Floating.neg_le_neg hxy) h' h

protected theorem sub_le_sub (hxy : x ≤ y) (hwz : w ≤ z) (h : ¬(x - z).isNaN)
    (h' : ¬(y - w).isNaN) : x - z ≤ y - w := by
  rw [Floating.sub_eq_add_neg x z] at h ⊢
  rw [Floating.sub_eq_add_neg y w] at h' ⊢
  exact Floating.add_le_add hxy (Floating.neg_le_neg hwz) h h'

/-- The sign of a difference, where NaN counts as zero. -/
theorem value_sub_nonpos (h : x ≤ y) : value (x - y) ≤ 0 := by
  by_cases hnan : (x - y).isNaN
  · exact (value_of_isNaN hnan).le
  · have hle := weight_mono h
    rw [Floating.sub_eq_add_neg] at hnan ⊢
    rw [value_add_eq hnan, weight_neg]
    exact rounded_nonpos (by linarith)

theorem value_sub_nonneg (h : y ≤ x) : 0 ≤ value (x - y) := by
  by_cases hnan : (x - y).isNaN
  · exact (value_of_isNaN hnan).ge
  · have hle := weight_mono h
    rw [Floating.sub_eq_add_neg] at hnan ⊢
    rw [value_add_eq hnan, weight_neg]
    exact rounded_nonneg (by linarith)

/-- Where a difference is undetermined, the one from anything lower is infinite. -/
theorem value_sub_of_isNaN (hle : y ≤ z) (hz : (x - z).isNaN) (hy : ¬(x - y).isNaN) :
    value (x - y) = beyond := by
  obtain ⟨-, hznan, hvalues⟩ := le_iff.1 hle
  rw [Floating.sub_eq_add_neg] at hz hy ⊢
  have hx : ¬x.isNaN := fun h => hy (isNaN_add.2 (.inl h))
  rw [isNaN_add, or_iff_right hx, isNaN_neg, or_iff_right hznan, value_neg, neg_inj] at hz
  obtain ⟨hinf, hsame⟩ := hz
  have hne : value y ≠ value x := by
    intro h
    refine hy (isNaN_add.2 (.inr (.inr ⟨hinf, ?_⟩)))
    rw [value_neg, h]
  have hlt : value y < value x := lt_of_le_of_ne (hsame ▸ hvalues) hne
  have hend : value x = beyond :=
    ((abs_eq beyond_pos.le).1 hinf).resolve_right
      ((neg_le_of_abs_le (abs_value_le y)).trans_lt hlt).ne'
  rw [Floating.add_comm] at hy ⊢
  rw [value_add_of_infinite_right hy hinf, hend]

theorem abs_weight_of_infinite (hx : ¬x.isNaN) (hinf : ¬x.isFinite) :
    |weight x| = beyond * 2 ^ (1074 : ℤ) := by
  rw [weight_of_infinite hinf, abs_mul, abs_value_of_infinite hx hinf, abs_of_pos (by positivity)]

/-- A number other than zero is at least the least step. -/
theorem least_le_abs_weight (hx : ¬x.isNaN) (hzero : value x ≠ 0) :
    2 ^ (-1074 : ℤ) ≤ |weight x| := by
  have hstep : (0 : ℚ) < 2 ^ (-1074 : ℤ) := by positivity
  by_cases hfinite : x.isFinite
  · obtain ⟨n, hn⟩ := exists_value_eq hfinite
    have hne : n ≠ 0 := by
      rintro rfl
      exact hzero (by rw [hn, Int.cast_zero, zero_mul])
    have hone : (1 : ℚ) ≤ |(n : ℚ)| := by exact_mod_cast Int.one_le_abs hne
    rw [weight_of_isFinite hfinite, hn, abs_mul, abs_of_pos hstep]
    exact le_mul_of_one_le_left hstep.le hone
  · have hsmall : (2 : ℚ) ^ (-1074 : ℤ) ≤ beyond := (zpow_lt_beyond (by norm_num)).le
    have hfar : (1 : ℚ) ≤ 2 ^ (1074 : ℤ) := one_le_zpow₀ one_le_two (by norm_num)
    rw [abs_weight_of_infinite hx hfinite]
    exact hsmall.trans (le_mul_of_one_le_right beyond_pos.le hfar)

theorem beyond_le_abs_weight_mul (hx : ¬x.isNaN) (hinf : ¬x.isFinite) (hy : ¬y.isNaN)
    (hzero : value y ≠ 0) : beyond ≤ |weight x * weight y| := by
  have hcancel : (2 : ℚ) ^ (1074 : ℤ) * 2 ^ (-1074 : ℤ) = 1 := by
    rw [← zpow_add₀ two_ne_zero, add_neg_cancel, zpow_zero]
  have hfar : 0 ≤ beyond * (2 : ℚ) ^ (1074 : ℤ) := mul_nonneg beyond_pos.le (by positivity)
  calc beyond = beyond * 2 ^ (1074 : ℤ) * 2 ^ (-1074 : ℤ) := by rw [mul_assoc, hcancel, mul_one]
    _ ≤ beyond * 2 ^ (1074 : ℤ) * |weight y| :=
      mul_le_mul_of_nonneg_left (least_le_abs_weight hy hzero) hfar
    _ = |weight x * weight y| := by rw [abs_mul, abs_weight_of_infinite hx hinf]

/-- A product that is a number is the rounded product of the weights. -/
theorem value_mul_eq (h : ¬(x * y).isNaN) : value (x * y) = rounded (weight x * weight y) := by
  by_cases hfinite : x.isFinite ∧ y.isFinite
  · rw [value_mul hfinite.1 hfinite.2, weight_of_isFinite hfinite.1, weight_of_isFinite hfinite.2]
  · have hnan := h
    simp only [isNaN_mul, not_or, not_and] at hnan
    obtain ⟨hx, hy, hzeroRight, hzeroLeft⟩ := hnan
    have hlarge : beyond ≤ |weight x * weight y| := by
      by_cases hxfin : x.isFinite
      · have hyfin : ¬y.isFinite := fun hyfin => hfinite ⟨hxfin, hyfin⟩
        rw [mul_comm]
        exact beyond_le_abs_weight_mul hy hyfin hx fun h =>
          hzeroLeft h (abs_value_of_infinite hy hyfin)
      · exact beyond_le_abs_weight_mul hx hxfin hy (hzeroRight (abs_value_of_infinite hx hxfin))
    rw [value_mul_of_infinite h hfinite, rounded_of_beyond_le_abs hlarge, sign_mul, sign_mul,
      sign_weight, sign_weight]

protected theorem mul_le_mul_right (hz : 0 ≤ value z) (hxy : x ≤ y) (h : ¬(x * z).isNaN)
    (h' : ¬(y * z).isNaN) : x * z ≤ y * z := by
  refine le_iff.2 ⟨h, h', ?_⟩
  rw [value_mul_eq h, value_mul_eq h']
  exact rounded_mono (mul_le_mul_of_nonneg_right (weight_mono hxy) (weight_nonneg hz))

protected theorem mul_le_mul_left (hz : 0 ≤ value z) (hxy : x ≤ y) (h : ¬(z * x).isNaN)
    (h' : ¬(z * y).isNaN) : z * x ≤ z * y := by
  refine le_iff.2 ⟨h, h', ?_⟩
  rw [value_mul_eq h, value_mul_eq h']
  exact rounded_mono (mul_le_mul_of_nonneg_left (weight_mono hxy) (weight_nonneg hz))

/-- A factor that is not positive turns the order round. -/
protected theorem mul_le_mul_left_of_nonpos (hz : value z ≤ 0) (hxy : x ≤ y) (h : ¬(z * x).isNaN)
    (h' : ¬(z * y).isNaN) : z * y ≤ z * x := by
  refine le_iff.2 ⟨h', h, ?_⟩
  rw [value_mul_eq h, value_mul_eq h']
  exact rounded_mono (mul_le_mul_of_nonpos_left (weight_mono hxy) (weight_nonpos hz))

end

end JointGuard.Floating
