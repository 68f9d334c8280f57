import JointGuard.Proofs.Floating.Unpacked

/-! # Packing

A number is kept in packed form.  Unpacking gives a canonical form whose exponent is in range, and
packing such a form loses nothing; a larger exponent packs to an infinity.  Together with rounding
this makes `rounded` the value of a packed result (`IsRounded.pack_value`). -/

namespace JointGuard.Floating
open Float.Model UnpackedFloat

/-- The exponent of a finite number is in range. -/
def Fits : UnpackedFloat → Prop
  | .finite _ _ e _ => e ≤ 971
  | _ => True

/-- Every word is made of a sign, a biased exponent and a fraction. -/
theorem exists_components (bits : BitVec 64) :
    ∃ (s : Sign) (b : BitVec 11) (f : BitVec 52), bits = packComponents Format.binary64 s b f :=
  ⟨_, _, _, (@packComponents_unpackSign_unpackExponent_unpackMantissa Format.binary64 bits).symm⟩

theorem toNat_one_append (m : BitVec 52) : (1#1 ++ m).toNat = 2 ^ 52 + m.toNat := by
  rw [BitVec.toNat_append, ← Nat.shiftLeft_add_eq_or_of_lt m.isLt]
  rfl

theorem log2_eq_iff_full {m : ℕ} (hpos : 0 < m) (hm : m < 2 ^ 53) : m.log2 = 52 ↔ 2 ^ 52 ≤ m := by
  rw [Nat.log2_eq_iff hpos.ne']
  omega

theorem unpack_normal_components (s : Sign) {b : BitVec 11} (hmin : b ≠ 0#11) (hmax : b ≠ -1#11)
    (f : BitVec 52) :
    UnpackedFloat.unpack Format.binary64 (packComponents Format.binary64 s b f) =
      .finite s (2 ^ 52 + f.toNat) (b.toNat - 1075) (by omega) := by
  simp only [UnpackedFloat.unpack, unpackMantissa_packComponents, unpackExponent_packComponents]
  rw [if_neg hmax, if_neg hmin]
  simp only [unpackSign_packComponents, Sign.ofBitVec_toBitVec, toNat_one_append]
  rfl

theorem unpack_subnormal_components (s : Sign) {f : BitVec 52} (hf : 0 < f.toNat) :
    UnpackedFloat.unpack Format.binary64 (packComponents Format.binary64 s 0#11 f) =
      .finite s f.toNat (-1074) hf := by
  have hne : f ≠ 0#52 := fun h => by simp [h] at hf
  simp only [UnpackedFloat.unpack, unpackMantissa_packComponents, unpackExponent_packComponents]
  rw [if_neg (by decide), if_pos trivial, dif_neg hne]
  simp only [unpackSign_packComponents, Sign.ofBitVec_toBitVec]
  rfl

theorem pack_finite (s : Sign) (m : ℕ) (e : ℤ) (hpos : 0 < m) :
    UnpackedFloat.pack Format.binary64 (.finite s m e hpos) =
      if 971 < e then packedInfinity Format.binary64 s
      else if m.log2 = 52 then
        packComponents Format.binary64 s (BitVec.ofNat 11 (e + 1075).toNat) (BitVec.ofNat 52 m)
      else packComponents Format.binary64 s 0#11 (BitVec.ofNat 52 m) := by
  have hbiased : e + 1023 + 52 = e + 1075 := by ring
  have hrange : 2 ^ 11 ≤ (e + 1075).toNat + 1 ↔ 971 < e := by omega
  have hfull : m.log2 + 1 = 53 ↔ m.log2 = 52 := by omega
  change (if 2 ^ 11 ≤ (e + 1023 + 52).toNat + 1 then _ else if m.log2 + 1 = 53 then
    packComponents Format.binary64 s (BitVec.ofNat 11 (e + 1023 + 52).toNat) _ else _) = _
  simp only [hbiased, hrange, hfull]

section
variable {s : Sign} {m : ℕ} {e : ℤ} {hpos : 0 < m}

theorem unpack_pack_normal (hm : m < 2 ^ 53) (he : -1074 ≤ e) (hfull : 2 ^ 52 ≤ m)
    (hfits : e ≤ 971) : (Float.Model.pack (.finite s m e hpos)).unpack = .finite s m e hpos := by
  have hbiased : ((BitVec.ofNat 11 (e + 1075).toNat).toNat : ℤ) = e + 1075 := by
    rw [BitVec.toNat_ofNat]
    omega
  have hmin : BitVec.ofNat 11 (e + 1075).toNat ≠ 0#11 := fun h => by
    rw [h] at hbiased
    simp at hbiased
    omega
  have hmax : BitVec.ofNat 11 (e + 1075).toNat ≠ -1#11 := fun h => by
    rw [h] at hbiased
    simp at hbiased
    omega
  have hfraction : 2 ^ 52 + (BitVec.ofNat 52 m).toNat = m := by
    rw [BitVec.toNat_ofNat]
    omega
  have hlog := (log2_eq_iff_full hpos hm).2 hfull
  change UnpackedFloat.unpack Format.binary64 (UnpackedFloat.pack Format.binary64 _) = _
  rw [pack_finite, if_neg (by omega), if_pos hlog, unpack_normal_components s hmin hmax]
  simp only [hbiased, hfraction]
  congr 1
  omega

theorem unpack_pack_subnormal (hm : m < 2 ^ 52) :
    (Float.Model.pack (.finite s m (-1074) hpos)).unpack = .finite s m (-1074) hpos := by
  have hfraction : (BitVec.ofNat 52 m).toNat = m := by
    rw [BitVec.toNat_ofNat]
    omega
  have hlog : m.log2 ≠ 52 := fun h => by
    have := (log2_eq_iff_full hpos (by omega)).1 h
    omega
  change UnpackedFloat.unpack Format.binary64 (UnpackedFloat.pack Format.binary64 _) = _
  rw [pack_finite, if_neg (by decide), if_neg hlog, unpack_subnormal_components s (by omega)]
  simp only [hfraction]

theorem unpack_pack_overflow (he : 971 < e) :
    (Float.Model.pack (.finite s m e hpos)).unpack = .infinity s := by
  change UnpackedFloat.unpack Format.binary64 (UnpackedFloat.pack Format.binary64 _) = _
  rw [pack_finite, if_pos he]
  cases s <;> rfl

end

/-- Packing a canonical form loses nothing. -/
theorem unpack_pack {u : UnpackedFloat} (hcanonical : Canonical u) (hfits : Fits u) :
    (Float.Model.pack u).unpack = u := by
  cases u with
  | notANumber => rfl
  | infinity s => cases s <;> rfl
  | zero s => cases s <;> rfl
  | finite s m e hpos =>
    obtain ⟨hm, he, hfull⟩ := hcanonical
    by_cases hnormal : 2 ^ 52 ≤ m
    · exact unpack_pack_normal hm he hnormal hfits
    · obtain rfl := hfull.resolve_left hnormal
      exact unpack_pack_subnormal (by omega)

/-- What is unpacked is canonical, with an exponent in range. -/
theorem canonical_unpack (x : Float.Model) : Canonical x.unpack ∧ Fits x.unpack := by
  obtain ⟨s, b, f, hbits⟩ := exists_components x.toBits.toBitVec
  rw [Float.Model.unpack, hbits]
  by_cases hmax : b = -1#11
  · subst hmax
    rw [UnpackedFloat.unpack, unpackExponent_packComponents, if_pos rfl]
    split <;> exact ⟨trivial, trivial⟩
  · have hlt : b.toNat ≠ 2047 := fun h => hmax (BitVec.eq_of_toNat_eq h)
    by_cases hmin : b = 0#11
    · subst hmin
      by_cases hzero : f.toNat = 0
      · obtain rfl : f = 0#52 := BitVec.eq_of_toNat_eq hzero
        cases s <;> exact ⟨trivial, trivial⟩
      · rw [unpack_subnormal_components s (Nat.pos_of_ne_zero hzero)]
        exact ⟨⟨by omega, le_rfl, .inr rfl⟩, show (-1074 : ℤ) ≤ 971 by decide⟩
    · have hpos : b.toNat ≠ 0 := fun h => hmin (BitVec.eq_of_toNat_eq h)
      rw [unpack_normal_components s hmin hmax]
      exact ⟨⟨by omega, by omega, .inl (by omega)⟩, show (b.toNat : ℤ) - 1075 ≤ 971 by omega⟩

/-- Unpacking loses nothing either, because there is only one NaN. -/
theorem pack_unpack (x : Float.Model) : Float.Model.pack x.unpack = x := by
  suffices h : UnpackedFloat.pack Format.binary64 (UnpackedFloat.unpack Format.binary64
      x.toBits.toBitVec) = x.toBits.toBitVec by
    simp only [Float.Model.pack, Float.Model.unpack, h]
  obtain ⟨s, b, f, hbits⟩ := exists_components x.toBits.toBitVec
  have hvalid := x.valid.eq_packedNaN
  rw [hbits, unpackExponent_packComponents, unpackMantissa_packComponents] at hvalid
  rw [hbits]
  by_cases hmax : b = -1#11
  · subst hmax
    by_cases hzero : f = 0#52
    · subst hzero
      cases s <;> rfl
    · rw [hvalid rfl hzero]
      rfl
  by_cases hmin : b = 0#11
  · subst hmin
    by_cases hzero : f.toNat = 0
    · obtain rfl : f = 0#52 := BitVec.eq_of_toNat_eq hzero
      cases s <;> rfl
    · have hpos : 0 < f.toNat := Nat.pos_of_ne_zero hzero
      have hlog : f.toNat.log2 ≠ 52 := fun h => by
        have := (log2_eq_iff_full hpos (by omega)).1 h
        omega
      rw [unpack_subnormal_components s hpos, pack_finite, if_neg (by decide), if_neg hlog,
        BitVec.ofNat_toNat, BitVec.setWidth_eq]
  · have hlt : b.toNat ≠ 2047 := fun h => hmax (BitVec.eq_of_toNat_eq h)
    have hlog : (2 ^ 52 + f.toNat).log2 = 52 :=
      (log2_eq_iff_full (by omega) (by omega)).2 (by omega)
    have hexponent : BitVec.ofNat 11 ((b.toNat : ℤ) - 1075 + 1075).toNat = b := by simp
    have hfraction : BitVec.ofNat 52 (2 ^ 52 + f.toNat) = f := by
      apply BitVec.eq_of_toNat_eq
      rw [BitVec.toNat_ofNat]
      omega
    rw [unpack_normal_components s hmin hmax, pack_finite, if_neg (by omega), if_pos hlog,
      hexponent, hfraction]

theorem pow_mul_zpow_eq_beyond (k : ℕ) {e : ℤ} (h : k + e = 1024) : 2 ^ k * 2 ^ e = beyond := by
  rw [← zpow_natCast, ← zpow_add₀ two_ne_zero, h]
  rfl

theorem abs_unpackedValue_finite (s : Sign) (m : ℕ) (e : ℤ) (hpos : 0 < m) :
    |unpackedValue (.finite s m e hpos)| = m * 2 ^ e := by
  have hnonneg : (0 : ℚ) ≤ m * 2 ^ e := by positivity
  rcases signFactor_eq s with h | h <;> simp [unpackedValue, h, abs_of_nonneg hnonneg]

theorem abs_unpackedValue_lt {u : UnpackedFloat} (hcanonical : Canonical u) (hfits : Fits u)
    (hfinite : u.isFinite) : |unpackedValue u| < beyond := by
  cases u with
  | notANumber => simp [UnpackedFloat.isFinite] at hfinite
  | infinity s => simp [UnpackedFloat.isFinite] at hfinite
  | zero s => simpa [unpackedValue] using beyond_pos
  | finite s m e hpos =>
    rw [abs_unpackedValue_finite, ← pow_mul_zpow_eq_beyond 53 (e := 971) rfl]
    have hm : (m : ℚ) < 2 ^ 53 := by exact_mod_cast hcanonical.1
    have he : (2 : ℚ) ^ e ≤ 2 ^ (971 : ℤ) := zpow_le_zpow_right₀ one_le_two hfits
    exact mul_lt_mul hm he (by positivity) (by positivity)

theorem beyond_le_abs_unpackedValue {s : Sign} {m : ℕ} {e : ℤ} {hpos : 0 < m}
    (hcanonical : Canonical (.finite s m e hpos)) (he : 971 < e) :
    beyond ≤ |unpackedValue (.finite s m e hpos)| := by
  have hm : (2 : ℚ) ^ 52 ≤ m := by exact_mod_cast hcanonical.2.2.resolve_right (by omega)
  have he' : (2 : ℚ) ^ (972 : ℤ) ≤ 2 ^ e := zpow_le_zpow_right₀ one_le_two (by omega)
  rw [abs_unpackedValue_finite]
  calc beyond = 2 ^ 52 * 2 ^ (972 : ℤ) := (pow_mul_zpow_eq_beyond 52 rfl).symm
    _ ≤ m * 2 ^ e := mul_le_mul hm he' (by positivity) (by positivity)

/-- A result that is rounded and packed is a number, with the rounded value. -/
theorem IsRounded.pack_value {u : UnpackedFloat} {x : ℚ} (h : IsRounded u x) :
    (Float.Model.pack u).unpack.isNaN = false ∧
      unpackedValue (Float.Model.pack u).unpack = rounded x := by
  have hpos := beyond_pos
  by_cases hfits : Fits u
  · rw [unpack_pack h.canonical hfits]
    have hlt := abs_lt.1 (abs_unpackedValue_lt h.canonical hfits h.isFinite)
    refine ⟨?_, ?_⟩
    · have := h.isFinite
      cases u <;> simp_all [UnpackedFloat.isFinite, UnpackedFloat.isNaN]
    · rw [rounded, ← h.value_eq, min_eq_left hlt.2.le, max_eq_right hlt.1.le]
  · cases u with
    | finite s m e hm =>
      have he : 971 < e := not_le.1 hfits
      have hle := beyond_le_abs_unpackedValue h.canonical he
      rw [unpack_pack_overflow he]
      refine ⟨rfl, ?_⟩
      rw [rounded, ← h.value_eq]
      have hnonneg : (0 : ℚ) ≤ m * 2 ^ e := by positivity
      rw [abs_unpackedValue_finite] at hle
      rcases signFactor_eq s with hs | hs <;> simp only [unpackedValue, hs, one_mul, neg_one_mul]
      · rw [min_eq_right hle, max_eq_right (by linarith)]
      · rw [min_eq_left (by linarith), max_eq_left (by linarith)]
    | _ => exact absurd trivial hfits

end JointGuard.Floating
