import JointGuard.Proofs.Floating.Packing

/-! # Values and order of numbers

A binary64 number that is not NaN has a rational value, with the infinities at `beyond` and its
negation, and the order of numbers is the order of their values (`le_iff`, `lt_iff`).  The order
lemmas that follow from it are stated for numbers themselves. -/

namespace JointGuard.Floating
open Float.Model UnpackedFloat

theorem compare_magnitude {s t : Sign} {m n : ℕ} {e f : ℤ} {hm : 0 < m} {hn : 0 < n}
    (hx : Canonical (.finite s m e hm)) (hy : Canonical (.finite t n f hn)) :
    (compare e f).then (compare m n) = compare ((m : ℚ) * 2 ^ e) (n * 2 ^ f) := by
  have hlt : ∀ {m n : ℕ} {e f : ℤ}, m < 2 ^ 53 → 2 ^ 52 ≤ n → e < f →
      (m : ℚ) * 2 ^ e < n * 2 ^ f := by
    intro m n e f hm hn he
    have hm' : (m : ℚ) < 2 ^ 52 * 2 := by exact_mod_cast hm
    have hn' : (2 ^ 52 : ℚ) ≤ n := by exact_mod_cast hn
    calc (m : ℚ) * 2 ^ e < 2 ^ 52 * 2 * 2 ^ e := by gcongr
      _ = 2 ^ 52 * 2 ^ (e + 1) := by rw [zpow_add_one₀ two_ne_zero]; ring
      _ ≤ n * 2 ^ f := mul_le_mul hn' (zpow_le_zpow_right₀ one_le_two he) (by positivity)
        (by positivity)
  obtain ⟨hm', he', hfull⟩ := hx
  obtain ⟨hn', hf', hfull'⟩ := hy
  rcases lt_trichotomy e f with h | rfl | h
  · rw [compare_lt_iff_lt.2 h, eq_comm]
    exact compare_lt_iff_lt.2 (hlt hm' (hfull'.resolve_right (by omega)) h)
  · have hpow : (0 : ℚ) < 2 ^ e := by positivity
    rw [compare_eq_iff_eq.2 rfl, Ordering.eq_then]
    rcases lt_trichotomy m n with h | rfl | h
    · rw [compare_lt_iff_lt.2 h, eq_comm, compare_lt_iff_lt]
      gcongr
    · rw [compare_eq_iff_eq.2 rfl, compare_eq_iff_eq.2 rfl]
    · rw [compare_gt_iff_gt.2 h, eq_comm, compare_gt_iff_gt]
      gcongr
  · rw [compare_gt_iff_gt.2 h, eq_comm]
    exact compare_gt_iff_gt.2 (hlt hn' (hfull.resolve_right (by omega)) h)

theorem compare_swap_neg (x y : ℚ) : (compare x y).swap = compare (-x) (-y) := by
  rcases lt_trichotomy x y with h | rfl | h
  · rw [compare_lt_iff_lt.2 h, eq_comm]
    exact compare_gt_iff_gt.2 (neg_lt_neg h)
  · rw [compare_eq_iff_eq.2 rfl, eq_comm]
    exact compare_eq_iff_eq.2 rfl
  · rw [compare_gt_iff_gt.2 h, eq_comm]
    exact compare_lt_iff_lt.2 (neg_lt_neg h)

section
variable {u v : UnpackedFloat} {s : Sign}

theorem compare_infinity_left (hv : v.isFinite) (hlt : |unpackedValue v| < beyond) :
    UnpackedFloat.compare (.infinity s) v =
      some (compare (unpackedValue (.infinity s)) (unpackedValue v)) := by
  obtain ⟨hlow, hhigh⟩ := abs_lt.1 hlt
  cases s with
  | negative =>
    have hbelow : compare (unpackedValue (.infinity .negative)) (unpackedValue v) = .lt :=
      compare_lt_iff_lt.2 (by simpa [unpackedValue, signFactor] using hlow)
    rw [hbelow]
    cases v <;> first | rfl | simp [UnpackedFloat.isFinite] at hv
  | positive =>
    have habove : compare (unpackedValue (.infinity .positive)) (unpackedValue v) = .gt :=
      compare_gt_iff_gt.2 (by simpa [unpackedValue, signFactor] using hhigh)
    rw [habove]
    cases v <;> first | rfl | simp [UnpackedFloat.isFinite] at hv

theorem compare_infinity_right (hu : u.isFinite) (hlt : |unpackedValue u| < beyond) :
    UnpackedFloat.compare u (.infinity s) =
      some (compare (unpackedValue u) (unpackedValue (.infinity s))) := by
  obtain ⟨hlow, hhigh⟩ := abs_lt.1 hlt
  cases s with
  | negative =>
    have habove : compare (unpackedValue u) (unpackedValue (.infinity .negative)) = .gt :=
      compare_gt_iff_gt.2 (by simpa [unpackedValue, signFactor] using hlow)
    rw [habove]
    cases u <;> first | rfl | simp [UnpackedFloat.isFinite] at hu
  | positive =>
    have hbelow : compare (unpackedValue u) (unpackedValue (.infinity .positive)) = .lt :=
      compare_lt_iff_lt.2 (by simpa [unpackedValue, signFactor] using hhigh)
    rw [hbelow]
    cases u <;> first | rfl | simp [UnpackedFloat.isFinite] at hu

theorem compare_infinities (s t : Sign) : UnpackedFloat.compare (.infinity s) (.infinity t) =
    some (compare (unpackedValue (.infinity s)) (unpackedValue (.infinity t))) := by
  have hneg : -beyond < beyond := neg_lt_self beyond_pos
  cases s <;> cases t <;>
    simp only [UnpackedFloat.compare, unpackedValue, signFactor, one_mul, neg_one_mul,
      compare_lt_iff_lt.2 hneg, compare_gt_iff_gt.2 hneg, compare_eq_iff_eq.2] <;> rfl

theorem unpackedValue_negative {m : ℕ} (hm : 0 < m) (e : ℤ) :
    unpackedValue (.finite .negative m e hm) < 0 := by
  have hpos : 0 < (m : ℚ) * 2 ^ e := by positivity
  simpa [unpackedValue, signFactor] using hpos

theorem unpackedValue_positive {m : ℕ} (hm : 0 < m) (e : ℤ) :
    0 < unpackedValue (.finite .positive m e hm) := by
  have hpos : 0 < (m : ℚ) * 2 ^ e := by positivity
  simpa [unpackedValue, signFactor] using hpos

/-- Below the infinities the sign decides, and then the magnitude. -/
theorem compare_finite (hu : Canonical u) (hv : Canonical v) (hufin : u.isFinite)
    (hvfin : v.isFinite) : u.compare v = some (compare (unpackedValue u) (unpackedValue v)) := by
  cases u with
  | zero s =>
    cases v with
    | zero t => exact congrArg some (compare_eq_iff_eq.2 rfl).symm
    | finite t n f hn =>
      cases t with
      | negative =>
        exact congrArg some (compare_gt_iff_gt.2 (unpackedValue_negative hn f)).symm
      | positive =>
        exact congrArg some (compare_lt_iff_lt.2 (unpackedValue_positive hn f)).symm
    | _ => simp [UnpackedFloat.isFinite] at hvfin
  | finite s m e hm =>
    cases v with
    | zero t =>
      cases s with
      | negative =>
        exact congrArg some (compare_lt_iff_lt.2 (unpackedValue_negative hm e)).symm
      | positive =>
        exact congrArg some (compare_gt_iff_gt.2 (unpackedValue_positive hm e)).symm
    | finite t n f hn =>
      cases s <;> cases t
      · simp only [UnpackedFloat.compare, unpackedValue, signFactor, neg_one_mul]
        rw [compare_magnitude hu hv, compare_swap_neg]
      · have hlt := (unpackedValue_negative hm e).trans (unpackedValue_positive hn f)
        exact congrArg some (compare_lt_iff_lt.2 hlt).symm
      · have hlt := (unpackedValue_negative hn f).trans (unpackedValue_positive hm e)
        exact congrArg some (compare_gt_iff_gt.2 hlt).symm
      · simp only [UnpackedFloat.compare, unpackedValue, signFactor, one_mul]
        rw [compare_magnitude hu hv]
    | _ => simp [UnpackedFloat.isFinite] at hvfin
  | _ => simp [UnpackedFloat.isFinite] at hufin

theorem isFinite_or_infinity (h : u.isNaN = false) : u.isFinite ∨ ∃ s, u = .infinity s := by
  cases u with
  | notANumber => simp [UnpackedFloat.isNaN] at h
  | infinity s => exact .inr ⟨s, rfl⟩
  | _ => exact .inl rfl

theorem compare_unpacked (hu : Canonical u ∧ Fits u) (hv : Canonical v ∧ Fits v)
    (hun : u.isNaN = false) (hvn : v.isNaN = false) :
    u.compare v = some (compare (unpackedValue u) (unpackedValue v)) := by
  rcases isFinite_or_infinity hun with hufin | ⟨s, rfl⟩
  · rcases isFinite_or_infinity hvn with hvfin | ⟨t, rfl⟩
    · exact compare_finite hu.1 hv.1 hufin hvfin
    · exact compare_infinity_right hufin (abs_unpackedValue_lt hu.1 hu.2 hufin)
  · rcases isFinite_or_infinity hvn with hvfin | ⟨t, rfl⟩
    · exact compare_infinity_left hvfin (abs_unpackedValue_lt hv.1 hv.2 hvfin)
    · exact compare_infinities s t

/-- Only the two zeros compare as equal without being one. -/
theorem eq_of_compare_eq (h : u.compare v = some .eq) (hzero : unpackedValue u ≠ 0) : u = v := by
  cases u with
  | notANumber => simp [UnpackedFloat.compare] at h
  | zero s => exact absurd rfl hzero
  | infinity s =>
    cases v with
    | infinity t => cases s <;> cases t <;> first | rfl | exact absurd h (by decide)
    | _ => cases s <;> simp [UnpackedFloat.compare] at h
  | finite s m e hm =>
    cases v with
    | finite t n f hn =>
      cases s <;> cases t <;> simp_all [UnpackedFloat.compare, Ordering.then_eq_eq]
    | infinity t => cases s <;> cases t <;> simp [UnpackedFloat.compare] at h
    | zero t => cases s <;> simp [UnpackedFloat.compare] at h
    | notANumber => simp [UnpackedFloat.compare] at h

end

/-- The value of a number: the infinities stand at `beyond`, and NaN counts as zero. -/
def value (x : Float) : ℚ := unpackedValue x.toModel.unpack

theorem value_of_unpack {x : Float} {m : ℕ} {e : ℤ} {hm : 0 < m}
    (h : x.toModel.unpack = .finite .positive m e hm) : value x = m * 2 ^ e := by
  rw [value, h, unpackedValue, signFactor, one_mul]

theorem abs_value_le (x : Float) : |value x| ≤ beyond := by
  have hb := beyond_pos
  obtain ⟨hcanonical, hfits⟩ := canonical_unpack x.toModel
  rw [value]
  cases hx : x.toModel.unpack with
  | notANumber => simpa [unpackedValue] using hb.le
  | infinity s => cases s <;> simp [unpackedValue, signFactor, abs_of_pos hb]
  | zero s => simpa [unpackedValue] using hb.le
  | finite s m e hm =>
    rw [hx] at hcanonical hfits
    exact (abs_unpackedValue_lt hcanonical hfits rfl).le

theorem isFinite_iff {x : Float} : x.isFinite ↔ ¬x.isNaN ∧ |value x| < beyond := by
  have hb := beyond_pos
  obtain ⟨hcanonical, hfits⟩ := canonical_unpack x.toModel
  change x.toModel.unpack.isFinite ↔ ¬x.toModel.unpack.isNaN ∧ |unpackedValue x.toModel.unpack| < _
  cases hx : x.toModel.unpack with
  | notANumber => simp [UnpackedFloat.isFinite, UnpackedFloat.isNaN]
  | infinity s =>
    cases s <;> simp [UnpackedFloat.isFinite, unpackedValue, signFactor, abs_of_pos hb]
  | zero s => simpa [UnpackedFloat.isFinite, UnpackedFloat.isNaN, unpackedValue] using hb
  | finite s m e hm =>
    rw [hx] at hcanonical hfits
    have hlt := abs_unpackedValue_lt hcanonical hfits rfl
    simp [UnpackedFloat.isFinite, UnpackedFloat.isNaN, hlt]

theorem abs_value_lt {x : Float} (hx : x.isFinite) : |value x| < beyond := (isFinite_iff.1 hx).2

theorem not_isNaN_of_isFinite {x : Float} (hx : x.isFinite) : ¬x.isNaN := (isFinite_iff.1 hx).1

theorem isFinite_of_abs_le {x : Float} {e : ℤ} (hx : ¬x.isNaN) (he : e < 1024)
    (h : |value x| ≤ 2 ^ e) : x.isFinite :=
  isFinite_iff.2 ⟨hx, h.trans_lt (zpow_lt_beyond he)⟩

theorem compare_of_isNaN {x y : Float} (h : x.isNaN ∨ y.isNaN) :
    x.toModel.unpack.compare y.toModel.unpack = none := by
  change x.toModel.unpack.isNaN ∨ y.toModel.unpack.isNaN at h
  cases hx : x.toModel.unpack <;> cases hy : y.toModel.unpack <;>
    simp_all [UnpackedFloat.compare, UnpackedFloat.isNaN]

theorem compare_of_not_isNaN {x y : Float} (hx : ¬x.isNaN) (hy : ¬y.isNaN) :
    x.toModel.unpack.compare y.toModel.unpack = some (compare (value x) (value y)) := by
  rw [Bool.not_eq_true] at hx hy
  exact compare_unpacked (canonical_unpack _) (canonical_unpack _) hx hy

theorem le_iff {x y : Float} : x ≤ y ↔ ¬x.isNaN ∧ ¬y.isNaN ∧ value x ≤ value y := by
  have hle : x ≤ y ↔ (x.toModel.unpack.compare y.toModel.unpack).any (·.isLE) := decide_eq_true_iff
  rw [hle]
  by_cases hnan : x.isNaN ∨ y.isNaN
  · rw [compare_of_isNaN hnan]
    simp only [Option.any_none, Bool.false_eq_true, false_iff]
    tauto
  · obtain ⟨hx, hy⟩ := not_or.1 hnan
    rw [compare_of_not_isNaN hx hy, Option.any_some, ← Ordering.ne_gt_iff_isLE, compare_gt_iff_gt,
      not_lt]
    tauto

theorem lt_iff {x y : Float} : x < y ↔ ¬x.isNaN ∧ ¬y.isNaN ∧ value x < value y := by
  have hlt : x < y ↔ x.toModel.unpack.compare y.toModel.unpack == some .lt := decide_eq_true_iff
  rw [hlt, beq_iff_eq]
  by_cases hnan : x.isNaN ∨ y.isNaN
  · rw [compare_of_isNaN hnan]
    simp only [reduceCtorEq, false_iff]
    tauto
  · obtain ⟨hx, hy⟩ := not_or.1 hnan
    rw [compare_of_not_isNaN hx hy, Option.some.injEq, compare_lt_iff_lt]
    tauto

theorem beq_iff {x y : Float} : x == y ↔ ¬x.isNaN ∧ ¬y.isNaN ∧ value x = value y := by
  have hbeq : (x == y) = (x.toModel.unpack.compare y.toModel.unpack == some .eq) := rfl
  rw [hbeq, beq_iff_eq]
  by_cases hnan : x.isNaN ∨ y.isNaN
  · rw [compare_of_isNaN hnan]
    simp only [reduceCtorEq, false_iff]
    tauto
  · obtain ⟨hx, hy⟩ := not_or.1 hnan
    rw [compare_of_not_isNaN hx hy, Option.some.injEq, compare_eq_iff_eq]
    tauto

/-- Numbers that are equal and not zero have the same bits. -/
theorem eq_of_beq {x y : Float} (h : x == y) (hzero : value x ≠ 0) : x = y := by
  have hcompare : x.toModel.unpack.compare y.toModel.unpack = some .eq := beq_iff_eq.1 h
  have hmodel : x.toModel = y.toModel := by
    rw [← pack_unpack x.toModel, eq_of_compare_eq hcompare hzero, pack_unpack]
  cases x
  cases y
  exact congrArg Float.ofModel hmodel

/-- Equal as numbers, so that the two zeros are one, or both NaN. -/
def Same (x y : Float) : Prop := x == y ∨ x.isNaN ∧ y.isNaN

theorem same_of_value_eq {x y : Float} (hx : ¬x.isNaN) (hy : ¬y.isNaN)
    (h : value x = value y) : Same x y := .inl (beq_iff.2 ⟨hx, hy, h⟩)

section
variable {x y z : Float}

protected theorem le_refl (hx : ¬x.isNaN) : x ≤ x := le_iff.2 ⟨hx, hx, le_rfl⟩

protected theorem le_trans (hxy : x ≤ y) (hyz : y ≤ z) : x ≤ z := by
  rw [le_iff] at *
  exact ⟨hxy.1, hyz.2.1, hxy.2.2.trans hyz.2.2⟩

protected theorem not_lt (hx : ¬x.isNaN) (hy : ¬y.isNaN) : ¬x < y ↔ y ≤ x := by
  rw [lt_iff, le_iff]
  grind

protected theorem le_of_lt (h : x < y) : x ≤ y := by
  obtain ⟨hx, hy, hlt⟩ := lt_iff.1 h
  exact le_iff.2 ⟨hx, hy, hlt.le⟩

protected theorem lt_of_lt_of_le (hxy : x < y) (hyz : y ≤ z) : x < z := by
  rw [lt_iff] at hxy ⊢
  rw [le_iff] at hyz
  exact ⟨hxy.1, hyz.2.1, hxy.2.2.trans_le hyz.2.2⟩

theorem le_of_beq (h : x == y) : x ≤ y := by
  obtain ⟨hx, hy, heq⟩ := beq_iff.1 h
  exact le_iff.2 ⟨hx, hy, heq.le⟩

theorem ge_of_beq (h : x == y) : y ≤ x := by
  obtain ⟨hx, hy, heq⟩ := beq_iff.1 h
  exact le_iff.2 ⟨hy, hx, heq.ge⟩

theorem beq_of_le_of_ge (hle : x ≤ y) (hge : y ≤ x) : x == y := by
  obtain ⟨hx, hy, hvalue⟩ := le_iff.1 hle
  exact beq_iff.2 ⟨hx, hy, le_antisymm hvalue (le_iff.1 hge).2.2⟩

/-- Only the two zeros are on both sides of one another without being one. -/
theorem eq_of_le_of_ge (hle : x ≤ y) (hge : y ≤ x) (hzero : value x ≠ 0) : x = y :=
  eq_of_beq (beq_of_le_of_ge hle hge) hzero

theorem not_isNaN_left (h : x ≤ y) : ¬x.isNaN := (le_iff.1 h).1

theorem not_isNaN_right (h : x ≤ y) : ¬y.isNaN := (le_iff.1 h).2.1

end

end JointGuard.Floating
