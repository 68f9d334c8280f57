import JointGuard.Proofs.Floating.Weight

/-! # Opposite numbers

Negation goes through sums, differences and products: rounding treats both signs alike, and NaN
arises for the opposite numbers just where it arises for the numbers themselves.  Only the sign of a
zero may differ, so all of this is about equality of numbers. -/

namespace JointGuard.Floating

variable {x y z w : Float}

theorem beq_neg_iff : x == -y ↔ ¬x.isNaN ∧ ¬y.isNaN ∧ value x = -value y := by
  rw [beq_iff, isNaN_neg, value_neg]

theorem neg_beq_self (hx : ¬x.isNaN) : -x == -x :=
  beq_neg_iff.2 ⟨by rwa [isNaN_neg], hx, value_neg x⟩

theorem beq_neg_neg (hx : ¬x.isNaN) : x == - -x := by
  rw [beq_neg_iff, isNaN_neg, value_neg, neg_neg]
  exact ⟨hx, hx, rfl⟩

theorem neg_beq_neg (h : x == -y) : -x == - -y := by
  rw [beq_neg_iff] at h ⊢
  rw [isNaN_neg, isNaN_neg, value_neg, value_neg, h.2.2]
  exact ⟨h.1, h.2.1, rfl⟩

theorem beq_neg_symm (h : x == -y) : y == -x := by
  rw [beq_neg_iff] at h ⊢
  exact ⟨h.2.1, h.1, by rw [h.2.2, neg_neg]⟩

/-- The opposite of the opposite. -/
theorem beq_neg_trans (hxy : x == -y) (hyz : y == -z) : x == z := by
  rw [beq_neg_iff] at hxy hyz
  rw [beq_iff]
  exact ⟨hxy.1, hyz.2.1, by rw [hxy.2.2, hyz.2.2, neg_neg]⟩

theorem isFinite_of_beq_neg (h : x == -y) (hy : y.isFinite) : x.isFinite := by
  obtain ⟨hx, -, hvalue⟩ := beq_neg_iff.1 h
  rw [isFinite_iff, hvalue, abs_neg]
  exact ⟨hx, abs_value_lt hy⟩

theorem weight_of_beq_neg (h : x == -y) : weight x = -weight y := by
  have hfinite : x.isFinite ↔ y.isFinite :=
    ⟨isFinite_of_beq_neg (beq_neg_symm h), isFinite_of_beq_neg h⟩
  rw [weight, weight, (beq_neg_iff.1 h).2.2, if_congr hfinite rfl rfl, neg_mul]
  split <;> rfl

theorem add_beq_neg (hz : z == -x) (hw : w == -y) (h : ¬(x + y).isNaN) : z + w == -(x + y) := by
  have hsum : ¬(z + w).isNaN := by
    obtain ⟨hznan, hxnan, hzx⟩ := beq_neg_iff.1 hz
    obtain ⟨hwnan, hynan, hwy⟩ := beq_neg_iff.1 hw
    rw [isNaN_add, or_iff_right hxnan, or_iff_right hynan] at h
    rwa [isNaN_add, or_iff_right hznan, or_iff_right hwnan, hzx, hwy, abs_neg, neg_inj]
  refine beq_neg_iff.2 ⟨hsum, h, ?_⟩
  rw [value_add_eq hsum, value_add_eq h, weight_of_beq_neg hz, weight_of_beq_neg hw, ← neg_add,
    rounded_neg]

theorem sub_beq_neg (hz : z == -x) (hw : w == -y) (h : ¬(x - y).isNaN) : z - w == -(x - y) := by
  rw [Floating.sub_eq_add_neg x y] at h ⊢
  rw [Floating.sub_eq_add_neg z w]
  exact add_beq_neg hz (neg_beq_neg hw) h

/-- Turned round, a difference changes its sign. -/
theorem sub_swap_beq_neg (h : ¬(x - y).isNaN) : y - x == -(x - y) := by
  rw [Floating.sub_eq_add_neg x y] at h ⊢
  have hx : ¬x.isNaN := fun hx => h (isNaN_add.2 (.inl hx))
  have hy : ¬y.isNaN := fun hy => h (isNaN_add.2 (.inr (.inl (by rwa [isNaN_neg]))))
  rw [Floating.sub_eq_add_neg y x, Floating.add_comm y]
  exact add_beq_neg (neg_beq_self hx) (beq_neg_neg hy) h

theorem mul_beq_neg_left (hz : z == -x) (h : ¬(x * y).isNaN) : z * y == -(x * y) := by
  have hproduct : ¬(z * y).isNaN := by
    obtain ⟨hznan, hxnan, hzx⟩ := beq_neg_iff.1 hz
    rw [isNaN_mul, or_iff_right hxnan] at h
    rwa [isNaN_mul, or_iff_right hznan, hzx, abs_neg, neg_eq_zero]
  refine beq_neg_iff.2 ⟨hproduct, h, ?_⟩
  rw [value_mul_eq hproduct, value_mul_eq h, weight_of_beq_neg hz, neg_mul, rounded_neg]

theorem mul_beq_neg_right (hw : w == -y) (h : ¬(x * y).isNaN) : x * w == -(x * y) := by
  have hproduct : ¬(x * w).isNaN := by
    obtain ⟨hwnan, hynan, hwy⟩ := beq_neg_iff.1 hw
    rw [isNaN_mul, or_iff_right hynan] at h
    rwa [isNaN_mul, or_iff_right hwnan, hwy, abs_neg, neg_eq_zero]
  refine beq_neg_iff.2 ⟨hproduct, h, ?_⟩
  rw [value_mul_eq hproduct, value_mul_eq h, weight_of_beq_neg hw, mul_neg, rounded_neg]

end JointGuard.Floating
