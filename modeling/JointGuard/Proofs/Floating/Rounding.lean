import Mathlib

/-! # Rounding to the binary64 grid

The grid of a rational has the spacing of 53 significant bits at its size, and never a spacing
below that of the subnormal numbers.  `toGrid` takes the nearest grid point, of two that are equally
near the even one; `rounded` also stops at `beyond`, the place of the infinities.  Both keep the
order, the sign and every grid point. -/

namespace JointGuard.Floating

/-- The nearest whole number, and the even one of two that are equally near. -/
def halfEven (x : ℚ) : ℤ :=
  if 2 * (x - ⌊x⌋) < 1 then ⌊x⌋
  else if 1 < 2 * (x - ⌊x⌋) then ⌊x⌋ + 1
  else ⌊x⌋ + ⌊x⌋ % 2

theorem floor_le_halfEven (x : ℚ) : ⌊x⌋ ≤ halfEven x := by
  rw [halfEven]
  split_ifs <;> omega

theorem halfEven_le_floor_add_one (x : ℚ) : halfEven x ≤ ⌊x⌋ + 1 := by
  rw [halfEven]
  split_ifs <;> omega

@[simp] theorem halfEven_intCast (n : ℤ) : halfEven n = n := by
  simp [halfEven]

theorem halfEven_mono {x y : ℚ} (h : x ≤ y) : halfEven x ≤ halfEven y := by
  rcases (Int.floor_mono h).lt_or_eq with hlt | heq
  · have hx := halfEven_le_floor_add_one x
    have hy := floor_le_halfEven y
    omega
  · rw [halfEven, halfEven, heq]
    split_ifs <;> first | omega | linarith

/-- A tie between two neighbours of a whole number and of its negation falls on opposite points. -/
theorem halfEven_neg (x : ℚ) : halfEven (-x) = -halfEven x := by
  by_cases hx : x = ⌊x⌋
  · rw [hx, ← Int.cast_neg, halfEven_intCast, halfEven_intCast]
  · have hlt : (⌊x⌋ : ℚ) < x := lt_of_le_of_ne (Int.floor_le x) (Ne.symm hx)
    have hfloor : ⌊-x⌋ = -⌊x⌋ - 1 := by
      rw [Int.floor_eq_iff]
      push_cast
      constructor <;> linarith [Int.lt_floor_add_one x]
    rw [halfEven, halfEven, hfloor]
    push_cast
    split_ifs <;> first | omega | linarith

theorem le_halfEven {n : ℤ} {x : ℚ} (h : (n : ℚ) ≤ x) : n ≤ halfEven x := by
  simpa using halfEven_mono h

theorem halfEven_le {n : ℤ} {x : ℚ} (h : x ≤ n) : halfEven x ≤ n := by
  simpa using halfEven_mono h

/-- A number within half of a whole number is rounded to it, at half only if the whole number is
even. -/
theorem halfEven_eq_of_abs_le {x : ℚ} {n : ℤ} (h : |x - n| ≤ 1 / 2)
    (heven : |x - n| = 1 / 2 → Even n) : halfEven x = n := by
  obtain ⟨hlow, hhigh⟩ := abs_le.1 h
  rcases le_or_gt (n : ℚ) x with hge | hlt
  · have hfloor : ⌊x⌋ = n := Int.floor_eq_iff.2 ⟨hge, by linarith⟩
    rw [halfEven, hfloor]
    split_ifs with hless hmore
    · rfl
    · linarith
    · have htie : |x - n| = 1 / 2 := by rw [abs_of_nonneg (by linarith)]; linarith
      rw [Int.even_iff.1 (heven htie), add_zero]
  · have hfloor : ⌊x⌋ = n - 1 := Int.floor_eq_iff.2 (by push_cast; constructor <;> linarith)
    rw [halfEven, hfloor]
    push_cast
    split_ifs with hless hmore
    · linarith
    · ring
    · have htie : |x - n| = 1 / 2 := by rw [abs_of_neg (by linarith)]; linarith
      have := Int.even_iff.1 (heven htie)
      omega

/-- Rounding never more than doubles a number. -/
theorem halfEven_le_two_mul {x : ℚ} (hx : 0 ≤ x) : (halfEven x : ℚ) ≤ 2 * x := by
  have hfloor : (0 : ℤ) ≤ ⌊x⌋ := Int.floor_nonneg.2 hx
  have hle := Int.floor_le x
  rcases hfloor.lt_or_eq with hpos | hzero
  · have hround : (halfEven x : ℚ) ≤ ⌊x⌋ + 1 := by exact_mod_cast halfEven_le_floor_add_one x
    have hone : (1 : ℚ) ≤ ⌊x⌋ := by exact_mod_cast hpos
    linarith
  · rw [halfEven, ← hzero]
    split_ifs <;> push_cast at * <;> linarith

/-- The exponent of the last of 53 significant bits of a number. -/
def ulpExponent (x : ℚ) : ℤ := max (Int.log 2 |x| - 52) (-1074)

def ulp (x : ℚ) : ℚ := 2 ^ ulpExponent x

def toGrid (x : ℚ) : ℚ := halfEven (x / ulp x) * ulp x

theorem ulp_pos (x : ℚ) : 0 < ulp x := by
  rw [ulp]
  positivity

theorem least_le_ulpExponent (x : ℚ) : -1074 ≤ ulpExponent x := le_max_right _ _

@[simp] theorem ulpExponent_neg (x : ℚ) : ulpExponent (-x) = ulpExponent x := by
  simp [ulpExponent]

@[simp] theorem toGrid_neg (x : ℚ) : toGrid (-x) = -toGrid x := by
  simp [toGrid, ulp, neg_div, halfEven_neg]

@[simp] theorem toGrid_zero : toGrid 0 = 0 := by
  have h : halfEven 0 = 0 := by simpa using halfEven_intCast 0
  simp [toGrid, h]

theorem ulpExponent_mono {x y : ℚ} (hx : 0 < x) (h : x ≤ y) : ulpExponent x ≤ ulpExponent y := by
  rw [ulpExponent, ulpExponent, abs_of_pos hx, abs_of_pos (hx.trans_le h)]
  have := Int.log_mono_right (b := 2) hx h
  omega

/-- A multiple of a power of two is a multiple of each smaller one. -/
theorem mul_zpow_eq {e k : ℤ} (h : e ≤ k) (n : ℤ) :
    (n : ℚ) * 2 ^ k = ((n * 2 ^ (k - e).toNat : ℤ) : ℚ) * 2 ^ e := by
  have hk : k = ((k - e).toNat : ℤ) + e := by omega
  conv_lhs => rw [hk, zpow_add₀ two_ne_zero, zpow_natCast]
  push_cast
  ring

theorem toGrid_le {x : ℚ} {n k : ℤ} (hk : ulpExponent x ≤ k) (h : x ≤ n * 2 ^ k) :
    toGrid x ≤ n * 2 ^ k := by
  rw [mul_zpow_eq hk] at h ⊢
  have hround := halfEven_le ((div_le_iff₀ (ulp_pos x)).2 h)
  exact mul_le_mul_of_nonneg_right (by exact_mod_cast hround) (ulp_pos x).le

theorem le_toGrid {x : ℚ} {n k : ℤ} (hk : ulpExponent x ≤ k) (h : n * 2 ^ k ≤ x) :
    n * 2 ^ k ≤ toGrid x := by
  rw [mul_zpow_eq hk] at h ⊢
  have hround := le_halfEven ((le_div_iff₀ (ulp_pos x)).2 h)
  exact mul_le_mul_of_nonneg_right (by exact_mod_cast hround) (ulp_pos x).le

/-- A grid point is left where it is. -/
theorem toGrid_eq {n k : ℤ} (hk : ulpExponent (n * 2 ^ k) ≤ k) :
    toGrid (n * 2 ^ k) = n * 2 ^ k :=
  le_antisymm (toGrid_le hk le_rfl) (le_toGrid hk le_rfl)

theorem toGrid_nonneg {x : ℚ} (hx : 0 ≤ x) : 0 ≤ toGrid x := by
  simpa using le_toGrid (n := 0) le_rfl (by simpa using hx)

theorem toGrid_nonpos {x : ℚ} (hx : x ≤ 0) : toGrid x ≤ 0 := by
  simpa using toGrid_le (n := 0) le_rfl (by simpa using hx)

theorem lt_zpow_ulpExponent (x : ℚ) : |x| < 2 ^ (ulpExponent x + 53) := by
  have hlog : |x| < 2 ^ (Int.log 2 |x| + 1) := by
    simpa using Int.lt_zpow_succ_log_self (b := 2) one_lt_two |x|
  refine hlog.trans_le (zpow_le_zpow_right₀ one_le_two ?_)
  rw [ulpExponent]
  omega

theorem zpow_ulpExponent_le {x : ℚ} (hx : 0 < x) (he : -1074 < ulpExponent x) :
    2 ^ (ulpExponent x + 52) ≤ x := by
  have hlog : (2 : ℚ) ^ Int.log 2 x ≤ x := by
    simpa using Int.zpow_log_le_self (b := 2) one_lt_two hx
  have hexp : ulpExponent x + 52 = Int.log 2 x := by
    rw [ulpExponent, abs_of_pos hx] at he ⊢
    omega
  rwa [hexp]

theorem toGrid_mono_pos {x y : ℚ} (hx : 0 < x) (h : x ≤ y) : toGrid x ≤ toGrid y := by
  rcases (ulpExponent_mono hx h).lt_or_eq with hlt | heq
  · -- the power of two that ends the smaller grid lies between the two
    have hx' : x ≤ (1 : ℤ) * 2 ^ (ulpExponent y + 52) := by
      rw [Int.cast_one, one_mul]
      refine (le_abs_self x).trans ((lt_zpow_ulpExponent x).le.trans ?_)
      exact zpow_le_zpow_right₀ one_le_two (by omega)
    have hy' : (1 : ℤ) * 2 ^ (ulpExponent y + 52) ≤ y := by
      rw [Int.cast_one, one_mul]
      refine zpow_ulpExponent_le (hx.trans_le h) ?_
      have := least_le_ulpExponent x
      omega
    exact (toGrid_le (by omega) hx').trans (le_toGrid (by omega) hy')
  · have hulp : ulp x = ulp y := by rw [ulp, ulp, heq]
    rw [toGrid, toGrid, hulp]
    have hround := halfEven_mono (div_le_div_of_nonneg_right h (ulp_pos y).le)
    exact mul_le_mul_of_nonneg_right (by exact_mod_cast hround) (ulp_pos y).le

theorem toGrid_mono {x y : ℚ} (h : x ≤ y) : toGrid x ≤ toGrid y := by
  rcases lt_or_ge 0 x with hx | hx
  · exact toGrid_mono_pos hx h
  · rcases lt_or_ge y 0 with hy | hy
    · have := toGrid_mono_pos (neg_pos.2 hy) (neg_le_neg h)
      rw [toGrid_neg, toGrid_neg] at this
      linarith
    · exact (toGrid_nonpos hx).trans (toGrid_nonneg hy)

theorem toGrid_le_two_mul {x : ℚ} (hx : 0 ≤ x) : toGrid x ≤ 2 * x := by
  have hround := halfEven_le_two_mul (div_nonneg hx (ulp_pos x).le)
  calc toGrid x ≤ 2 * (x / ulp x) * ulp x := mul_le_mul_of_nonneg_right hround (ulp_pos x).le
    _ = 2 * x := by rw [mul_assoc, div_mul_cancel₀ x (ulp_pos x).ne']

theorem log_mul_zpow {y : ℚ} (hy : 0 < y) (e : ℤ) : Int.log 2 (y * 2 ^ e) = Int.log 2 y + e := by
  have hlow := Int.zpow_log_le_self one_lt_two hy
  have hhigh := Int.lt_zpow_succ_log_self one_lt_two y
  have hpos : 0 < y * 2 ^ e := by positivity
  have hle : Int.log 2 y + e ≤ Int.log 2 (y * 2 ^ e) := by
    rw [← Int.zpow_le_iff_le_log one_lt_two hpos, zpow_add₀ (by norm_num)]
    push_cast at hlow ⊢
    gcongr
  have hlt : Int.log 2 (y * 2 ^ e) < Int.log 2 y + 1 + e := by
    rw [← Int.lt_zpow_iff_log_lt one_lt_two hpos, zpow_add₀ (by norm_num)]
    push_cast at hhigh ⊢
    gcongr
  omega

theorem ulpExponent_mul_zpow {y : ℚ} (hy : 0 < y) (e : ℤ) :
    ulpExponent (y * 2 ^ e) = max (Int.log 2 y + e - 52) (-1074) := by
  have hpos : 0 < y * 2 ^ e := by positivity
  rw [ulpExponent, abs_of_pos hpos, log_mul_zpow hy]

/-- Between the bounds of a binade, or below them at the least exponent, a number is rounded in
units of its own exponent. -/
theorem toGrid_mul_zpow {x : ℚ} {e : ℤ} (hpos : 0 < x) (hlt : x < 2 ^ 53)
    (hfull : 2 ^ 52 ≤ x ∧ -1074 ≤ e ∨ e = -1074) :
    toGrid (x * 2 ^ e) = halfEven x * 2 ^ e := by
  have hhigh : Int.log 2 x < 53 := by
    rw [← Int.lt_zpow_iff_log_lt one_lt_two hpos]
    exact_mod_cast hlt
  have hexponent : ulpExponent (x * 2 ^ e) = e := by
    rw [ulpExponent_mul_zpow hpos]
    rcases hfull with ⟨hlow, he⟩ | rfl
    · have : 52 ≤ Int.log 2 x := by
        rw [← Int.zpow_le_iff_le_log one_lt_two hpos]
        exact_mod_cast hlow
      omega
    · omega
  rw [toGrid, ulp, hexponent, mul_div_cancel_right₀ _ (by positivity)]

theorem ulpExponent_natCast_mul_zpow {m : ℕ} (hm : m ≠ 0) (e : ℤ) :
    ulpExponent ((m : ℚ) * 2 ^ e) = max (m.log2 + e - 52) (-1074) := by
  rw [ulpExponent_mul_zpow (by positivity), Int.log_natCast, Nat.log2_eq_log_two]

theorem ulpExponent_le_of_lt {m : ℕ} {e : ℤ} (hpos : m ≠ 0) (hm : m < 2 ^ 53) (he : -1074 ≤ e) :
    ulpExponent ((m : ℚ) * 2 ^ e) ≤ e := by
  have hlog : m.log2 < 53 := (Nat.log2_lt hpos).2 hm
  rw [ulpExponent_natCast_mul_zpow hpos]
  omega

theorem toGrid_natMantissa {m : ℕ} {e : ℤ} (hm : m ≤ 2 ^ 53) (he : -1074 ≤ e) :
    toGrid ((m : ℚ) * 2 ^ e) = m * 2 ^ e := by
  have hshort : ∀ {m : ℕ}, m < 2 ^ 53 → ∀ {e : ℤ}, -1074 ≤ e →
      toGrid ((m : ℚ) * 2 ^ e) = m * 2 ^ e := by
    intro m hm e he
    by_cases hzero : m = 0
    · simp [hzero]
    · simpa using toGrid_eq (n := m) (by simpa using ulpExponent_le_of_lt hzero hm he)
  rcases hm.lt_or_eq with hlt | rfl
  · exact hshort hlt he
  · have hcarry : ((2 ^ 53 : ℕ) : ℚ) * 2 ^ e = (2 ^ 52 : ℕ) * 2 ^ (e + 1) := by
      rw [zpow_add_one₀ two_ne_zero]
      push_cast
      ring
    rw [hcarry]
    exact hshort (by norm_num) (by omega)

/-- Every mantissa of at most 53 bits, with any exponent from the least one on, is on the grid. -/
theorem toGrid_mantissa {n e : ℤ} (hn : |n| ≤ 2 ^ 53) (he : -1074 ≤ e) :
    toGrid (n * 2 ^ e) = n * 2 ^ e := by
  obtain ⟨m, rfl | rfl⟩ := n.eq_nat_or_neg
  · exact_mod_cast toGrid_natMantissa (by simpa using hn) he
  · have hm : m ≤ 2 ^ 53 := by
      rw [abs_neg, Nat.abs_cast] at hn
      exact_mod_cast hn
    push_cast
    rw [neg_mul, toGrid_neg, toGrid_natMantissa hm he]

theorem abs_halfEven_le (x : ℚ) : |halfEven (x / ulp x)| ≤ 2 ^ 53 := by
  have hbound : |x / ulp x| ≤ ((2 ^ 53 : ℤ) : ℚ) := by
    rw [abs_div, abs_of_pos (ulp_pos x), div_le_iff₀ (ulp_pos x)]
    refine (lt_zpow_ulpExponent x).le.trans_eq ?_
    rw [ulp, add_comm, zpow_add₀ two_ne_zero]
    norm_num
  obtain ⟨hlow, hhigh⟩ := abs_le.1 hbound
  exact abs_le.2 ⟨le_halfEven (by exact_mod_cast hlow), halfEven_le hhigh⟩

/-- The nearest grid point of a number above the subnormal ones has a full mantissa. -/
theorem le_halfEven_div_ulp {x : ℚ} (hx : 0 < x) (he : -1074 < ulpExponent x) :
    2 ^ 52 ≤ halfEven (x / ulp x) := by
  apply le_halfEven
  rw [le_div_iff₀ (ulp_pos x), ulp]
  refine le_trans (le_of_eq ?_) (zpow_ulpExponent_le hx he)
  rw [add_comm, zpow_add₀ two_ne_zero]
  norm_num

/-- Half of a rounded difference does not exceed the difference: where the half is no grid point,
the difference was one. -/
theorem toGrid_half_le {n : ℤ} (hn : 0 ≤ n) :
    toGrid (toGrid (n * 2 ^ (-1074 : ℤ)) / 2) ≤ n * 2 ^ (-1074 : ℤ) := by
  set x : ℚ := n * 2 ^ (-1074 : ℤ)
  have hx : 0 ≤ x := by positivity
  rcases (least_le_ulpExponent x).lt_or_eq with hlt | heq
  · have hhalf : toGrid x / 2 = halfEven (x / ulp x) * 2 ^ (ulpExponent x - 1) := by
      rw [toGrid, ulp, zpow_sub_one₀ two_ne_zero]
      ring
    rw [hhalf, toGrid_mantissa (abs_halfEven_le x) (by omega), ← hhalf]
    linarith [toGrid_le_two_mul hx]
  · have hgrid : toGrid x = x := toGrid_eq (n := n) heq.ge
    rw [hgrid]
    linarith [toGrid_le_two_mul (div_nonneg hx zero_le_two)]

/-- Where the infinities stand: the power of two above the greatest finite number. -/
def beyond : ℚ := 2 ^ 1024

def rounded (x : ℚ) : ℚ := max (-beyond) (min (toGrid x) beyond)

theorem beyond_pos : 0 < beyond := by
  rw [beyond]
  positivity

theorem rounded_le_beyond (x : ℚ) : rounded x ≤ beyond :=
  max_le (by linarith [beyond_pos]) (min_le_right _ _)

theorem rounded_mono {x y : ℚ} (h : x ≤ y) : rounded x ≤ rounded y :=
  max_le_max_left _ (min_le_min_right _ (toGrid_mono h))

@[simp] theorem rounded_neg (x : ℚ) : rounded (-x) = -rounded x := by
  have hpos := beyond_pos
  rw [rounded, rounded, toGrid_neg]
  grind

theorem rounded_of_toGrid {x : ℚ} (hgrid : toGrid x = x) (hx : |x| ≤ beyond) : rounded x = x := by
  obtain ⟨hlow, hhigh⟩ := abs_le.1 hx
  rw [rounded, hgrid, min_eq_left hhigh, max_eq_right hlow]

@[simp] theorem rounded_zero : rounded 0 = 0 :=
  rounded_of_toGrid toGrid_zero (by simpa using beyond_pos.le)

theorem rounded_nonneg {x : ℚ} (hx : 0 ≤ x) : 0 ≤ rounded x := by
  simpa using rounded_mono hx

theorem rounded_nonpos {x : ℚ} (hx : x ≤ 0) : rounded x ≤ 0 := by
  simpa using rounded_mono hx

theorem rounded_le_two_mul {x : ℚ} (hx : 0 ≤ x) : rounded x ≤ 2 * x := by
  have hgrid := toGrid_le_two_mul hx
  have hpos := beyond_pos
  exact max_le (by linarith) ((min_le_left _ _).trans hgrid)

theorem rounded_le_toGrid {x : ℚ} (hx : 0 ≤ x) : rounded x ≤ toGrid x :=
  max_le (by linarith [toGrid_nonneg hx, beyond_pos]) (min_le_left _ _)

/-- Half of a rounded difference, rounded again, does not exceed the difference. -/
theorem rounded_half_le {n : ℤ} (hn : 0 ≤ n) :
    rounded (rounded (n * 2 ^ (-1074 : ℤ)) / 2) ≤ n * 2 ^ (-1074 : ℤ) := by
  have hx : (0 : ℚ) ≤ n * 2 ^ (-1074 : ℤ) := by positivity
  have hhalf : 0 ≤ rounded (n * 2 ^ (-1074 : ℤ)) / 2 := div_nonneg (rounded_nonneg hx) zero_le_two
  calc rounded (rounded (n * 2 ^ (-1074 : ℤ)) / 2)
      ≤ toGrid (rounded (n * 2 ^ (-1074 : ℤ)) / 2) := rounded_le_toGrid hhalf
    _ ≤ toGrid (toGrid (n * 2 ^ (-1074 : ℤ)) / 2) :=
      toGrid_mono (div_le_div_of_nonneg_right (rounded_le_toGrid hx) zero_le_two)
    _ ≤ n * 2 ^ (-1074 : ℤ) := toGrid_half_le hn

/-- A step at a quarter of the distance per period, rounded twice, is at most half the distance. -/
theorem rounded_step_le {distance gain seconds : ℚ} (hdistance : 0 ≤ distance) (hgain : 0 ≤ gain)
    (hseconds : 0 ≤ seconds) (hstep : gain * seconds ≤ 1 / 4) :
    rounded (rounded (gain * distance) * seconds) ≤ rounded (distance / 2) := by
  have hspeed : rounded (gain * distance) ≤ 2 * (gain * distance) :=
    rounded_le_two_mul (mul_nonneg hgain hdistance)
  apply rounded_mono
  calc rounded (gain * distance) * seconds ≤ 2 * (gain * distance) * seconds := by gcongr
    _ = 2 * (gain * seconds) * distance := by ring
    _ ≤ 2 * (1 / 4) * distance := by gcongr
    _ = distance / 2 := by ring

section
variable {x : ℚ} {e : ℤ}

theorem zpow_lt_beyond (he : e < 1024) : 2 ^ e < beyond := by
  rw [beyond, ← zpow_natCast]
  exact zpow_lt_zpow_right₀ one_lt_two he

theorem rounded_natCast {n : ℕ} (hn : n ≤ 2 ^ 53) : rounded n = n := by
  have hgrid : toGrid (n : ℚ) = n := by
    simpa using toGrid_natMantissa (e := 0) hn (by norm_num)
  have hle : (n : ℚ) ≤ 2 ^ (53 : ℤ) := by exact_mod_cast hn
  refine rounded_of_toGrid hgrid ?_
  rw [Nat.abs_cast]
  exact hle.trans (zpow_lt_beyond (by norm_num)).le

theorem rounded_zpow (hlow : -1074 ≤ e) (hhigh : e ≤ 1024) : rounded (2 ^ e) = 2 ^ e := by
  apply rounded_of_toGrid
  · simpa using toGrid_mantissa (n := 1) (by norm_num) hlow
  · rw [abs_of_pos (by positivity), beyond, ← zpow_natCast]
    exact zpow_le_zpow_right₀ one_le_two hhigh

theorem rounded_le_zpow (hlow : -1074 ≤ e) (hhigh : e ≤ 1024) (hx : x ≤ 2 ^ e) :
    rounded x ≤ 2 ^ e :=
  (rounded_mono hx).trans_eq (rounded_zpow hlow hhigh)

theorem zpow_le_rounded (hlow : -1074 ≤ e) (hhigh : e ≤ 1024) (hx : 2 ^ e ≤ x) :
    2 ^ e ≤ rounded x :=
  (rounded_zpow hlow hhigh).symm.trans_le (rounded_mono hx)

/-- Nothing that is as far from zero as the least step is rounded to zero. -/
theorem rounded_ne_zero (h : 2 ^ (-1074 : ℤ) ≤ |x|) : rounded x ≠ 0 := by
  have hpos {y : ℚ} (hy : 2 ^ (-1074 : ℤ) ≤ y) : 0 < rounded y :=
    lt_of_lt_of_le (by positivity) (zpow_le_rounded le_rfl (by norm_num) hy)
  rcases le_abs.1 h with hup | hdown
  · exact (hpos hup).ne'
  · have hneg := hpos hdown
    rw [rounded_neg] at hneg
    exact (neg_pos.1 hneg).ne

theorem rounded_steps_eq_zero_iff {n : ℤ} : rounded (n * 2 ^ (-1074 : ℤ)) = 0 ↔ n = 0 := by
  constructor
  · contrapose
    intro hn
    have hone : (1 : ℚ) ≤ |(n : ℚ)| := by exact_mod_cast Int.one_le_abs hn
    have hstep : (0 : ℚ) < 2 ^ (-1074 : ℤ) := by positivity
    apply rounded_ne_zero
    rw [abs_mul, abs_of_pos hstep]
    exact le_mul_of_one_le_left hstep.le hone
  · rintro rfl
    simp

theorem rounded_intCast_eq_zero_iff {n : ℤ} : rounded n = 0 ↔ n = 0 := by
  constructor
  · contrapose
    intro hn
    have hone : (1 : ℚ) ≤ |(n : ℚ)| := by exact_mod_cast Int.one_le_abs hn
    have hsmall : (2 : ℚ) ^ (-1074 : ℤ) ≤ 1 := zpow_le_one_of_nonpos₀ one_le_two (by norm_num)
    exact rounded_ne_zero (hsmall.trans hone)
  · rintro rfl
    simp

/-- What is rounded to a finite number is below the infinities. -/
theorem lt_beyond_of_rounded_lt (h : rounded x < beyond) : x < beyond := by
  have hbeyond : beyond = 2 ^ (1024 : ℤ) := by rw [beyond, ← zpow_natCast, Nat.cast_ofNat]
  by_contra hle
  rw [not_lt, hbeyond] at hle
  have hrounded := zpow_le_rounded (by norm_num) le_rfl hle
  rw [← hbeyond] at hrounded
  exact absurd hrounded h.not_ge

end

theorem halfEven_intCast_add {t : ℚ} (n : ℤ) (ht : 0 ≤ t) (hlt : 2 * t < 1) :
    halfEven (n + t) = n := by
  have hfloor : ⌊(n : ℚ) + t⌋ = n := by
    rw [Int.floor_eq_iff]
    constructor <;> linarith
  rw [halfEven, hfloor, if_pos (by linarith)]

section
variable {n : ℕ} {f : ℚ}

theorem ulpExponent_natCast_add (hn : 0 < n) (hf : 0 ≤ f) (hlt : f < 1) :
    ulpExponent (n + f) = ulpExponent n := by
  have hone : (1 : ℚ) ≤ n := by exact_mod_cast hn
  have hfloor : ⌊(n : ℚ) + f⌋₊ = n := by
    rw [Nat.floor_eq_iff (by positivity)]
    constructor <;> linarith
  rw [ulpExponent, ulpExponent, abs_of_nonneg (by positivity), Nat.abs_cast,
    Int.log_of_one_le_right _ (by linarith), hfloor, Int.log_natCast]

theorem one_le_ulpExponent (hn : 2 ^ 53 ≤ n) : 1 ≤ ulpExponent n := by
  have hlog : 53 ≤ Nat.log 2 n := (Nat.le_log_iff_pow_le one_lt_two (by omega)).2 hn
  rw [ulpExponent, Nat.abs_cast, Int.log_natCast]
  omega

/-- Above 53 bits the grid points are even, and less than one does not lead to the next. -/
theorem toGrid_natCast_add (hn : 2 ^ 53 ≤ n) (hgrid : toGrid n = n) (hf : 0 ≤ f) (hlt : f < 1) :
    toGrid (n + f) = n := by
  have hulp : ulp (n + f) = ulp n := by
    rw [ulp, ulp, ulpExponent_natCast_add (by omega) hf hlt]
  have htwo : 2 ≤ ulp n := by
    simpa [ulp] using zpow_le_zpow_right₀ (a := (2 : ℚ)) one_le_two (one_le_ulpExponent hn)
  have hsmall : 2 * (f / ulp n) < 1 := by
    rw [mul_div_assoc', div_lt_one (ulp_pos _)]
    linarith
  have hmantissa : (n : ℚ) / ulp n = halfEven (n / ulp n) := by
    rw [div_eq_iff (ulp_pos _).ne']
    exact hgrid.symm
  have hround : halfEven ((n + f) / ulp n) = halfEven (n / ulp n) := by
    rw [add_div, hmantissa, halfEven_intCast_add _ (div_nonneg hf (ulp_pos _).le) hsmall,
      halfEven_intCast]
  rw [toGrid, hulp, hround]
  exact hgrid

/-- Large whole numbers are rounded to whole numbers. -/
theorem exists_toGrid_natCast (hn : 2 ^ 53 ≤ n) :
    ∃ m : ℕ, 2 ^ 53 ≤ m ∧ toGrid n = m ∧ toGrid m = m := by
  have hexponent := one_le_ulpExponent hn
  have hself : toGrid (toGrid n) = toGrid n := toGrid_mantissa (abs_halfEven_le _) (by omega)
  have hleast : toGrid ((2 ^ 53 : ℕ) : ℚ) = (2 ^ 53 : ℕ) := by
    simpa using toGrid_natMantissa (m := 2 ^ 53) (e := 0) le_rfl (by norm_num)
  have hle : ((2 ^ 53 : ℕ) : ℚ) ≤ toGrid n :=
    hleast.symm.trans_le (toGrid_mono (by exact_mod_cast hn))
  have hwhole : toGrid n = _ :=
    mul_zpow_eq (show 0 ≤ ulpExponent n by omega) (halfEven (n / ulp n))
  rw [zpow_zero, mul_one] at hwhole
  rw [hwhole] at hself hle
  have hnonneg : 0 ≤ halfEven (n / ulp n) * 2 ^ (ulpExponent n - 0).toNat := by
    exact_mod_cast (Nat.cast_nonneg _).trans hle
  obtain ⟨m, hm⟩ := Int.eq_ofNat_of_zero_le hnonneg
  rw [hm, Int.cast_natCast] at hwhole hself hle
  exact ⟨m, by exact_mod_cast hle, hwhole, hself⟩

theorem rounded_natCast_add_le (hn : 2 ^ 53 ≤ n) (hf : 0 ≤ f) (hlt : f < 1) :
    rounded (rounded n + f) ≤ rounded n := by
  obtain ⟨m, hm, hgrid, hself⟩ := exists_toGrid_natCast hn
  have hpos := beyond_pos
  have hvalue : rounded n = min (m : ℚ) beyond := by
    rw [rounded, hgrid, max_eq_right]
    exact le_min (by linarith [(Nat.cast_nonneg m : (0 : ℚ) ≤ m)]) (by linarith)
  rcases le_total beyond m with hover | hunder
  · rw [hvalue, min_eq_right hover]
    exact rounded_le_beyond _
  · rw [hvalue, min_eq_left hunder]
    calc rounded (m + f) ≤ toGrid (m + f) := rounded_le_toGrid (add_nonneg (Nat.cast_nonneg m) hf)
      _ = m := toGrid_natCast_add hm hself hf hlt

end

end JointGuard.Floating
