import JointGuard.Decimal.Binary64
import JointGuard.Proofs.Floating.Packing

/-! # The parts that are read from the bits

`Binary64.ofFloat` reads from the bits what unpacking reads from them, so that its result is
canonical and no two numbers share it: a number is its sign, its mantissa and its exponent. -/

namespace JointGuard.Decimal.Binary64
open Floating Float.Model UnpackedFloat

theorem binadeStart_eq : binadeStart = 2 ^ 52 := rfl

/-- A finite number has 53 significant bits, or fewer at the least exponent. -/
def IsCanonical : Binary64 → Prop
  | .finite _ mantissa exponent =>
    mantissa < 2 ^ 53 ∧ -1074 ≤ exponent ∧ (2 ^ 52 ≤ mantissa ∨ exponent = -1074)
  | _ => True

def isNegative : Sign → Bool
  | .negative => true
  | .positive => false

def ofUnpacked : UnpackedFloat → Binary64
  | .notANumber => .nan
  | .infinity s => .infinite (isNegative s)
  | .zero s => .finite (isNegative s) 0 leastExponent
  | .finite s m e _ => .finite (isNegative s) m e

theorem isNegative_injective {s t : Sign} (h : isNegative s = isNegative t) : s = t := by
  cases s <;> cases t <;> simp [isNegative] at h ⊢

theorem ofUnpacked_injective {u v : UnpackedFloat} (h : ofUnpacked u = ofUnpacked v) : u = v := by
  cases u <;> cases v <;> simp only [ofUnpacked, Binary64.infinite.injEq, Binary64.finite.injEq,
    reduceCtorEq] at h
  case notANumber.notANumber => rfl
  case infinity.infinity => rw [isNegative_injective h]
  case zero.zero => rw [isNegative_injective h.1]
  case zero.finite hpos => exact absurd h.2.1 hpos.ne
  case finite.zero hpos _ => exact absurd h.2.1 hpos.ne'
  case finite.finite =>
    obtain ⟨hs, rfl, rfl⟩ := h
    rw [isNegative_injective hs]

theorem isCanonical_ofUnpacked {u : UnpackedFloat} (h : Canonical u) :
    IsCanonical (ofUnpacked u) := by
  cases u with
  | finite => exact h
  | zero => exact ⟨by norm_num, le_rfl, .inr rfl⟩
  | notANumber => trivial
  | infinity => trivial

section
variable (s : Sign) (b : BitVec 11) (f : BitVec 52)

theorem toNat_packComponents : (packComponents Format.binary64 s b f).toNat =
    (s.toBitVec.toNat * 2 ^ 11 + b.toNat) * 2 ^ 52 + f.toNat := by
  rw [packComponents, BitVec.toNat_append, ← Nat.shiftLeft_add_eq_or_of_lt f.isLt,
    BitVec.toNat_append, ← Nat.shiftLeft_add_eq_or_of_lt b.isLt, Nat.shiftLeft_eq, Nat.shiftLeft_eq]

theorem shiftRight_packComponents : (packComponents Format.binary64 s b f).toNat >>> 63 =
    s.toBitVec.toNat := by
  rw [toNat_packComponents, Nat.shiftRight_eq_div_pow]
  omega

theorem biased_packComponents :
    ((packComponents Format.binary64 s b f).toNat >>> 52) % 2048 = b.toNat := by
  rw [toNat_packComponents, Nat.shiftRight_eq_div_pow]
  omega

theorem mod_packComponents :
    (packComponents Format.binary64 s b f).toNat % binadeStart = f.toNat := by
  rw [toNat_packComponents, binadeStart_eq]
  omega

theorem decide_toBitVec_eq_one : decide (s.toBitVec.toNat = 1) = isNegative s := by
  cases s <;> rfl

end

/-- The parts of a word as they are read: sign, biased exponent and fraction. -/
def ofComponents (s : Sign) (biased fraction : ℕ) : Binary64 :=
  if biased = 2047 then .infinite (isNegative s)
  else if biased = 0 then .finite (isNegative s) fraction leastExponent
  else .finite (isNegative s) (binadeStart + fraction) (leastExponent + (biased - 1 : ℕ))

theorem ofFloat_of_components {x : Float} {s : Sign} {b : BitVec 11} {f : BitVec 52}
    (h : x.toModel.toBits.toBitVec = packComponents Format.binary64 s b f) :
    ofFloat x = if x.isNaN then .nan else ofComponents s b.toNat f.toNat := by
  have hnat : x.toBits.toNat = (packComponents Format.binary64 s b f).toNat :=
    congrArg BitVec.toNat h
  simp only [ofFloat, ofComponents, hnat, shiftRight_packComponents, biased_packComponents,
    mod_packComponents, decide_toBitVec_eq_one]

/-- Unpacking reads the same parts. -/
theorem ofUnpacked_unpack_components (s : Sign) (b : BitVec 11) (f : BitVec 52) :
    let u := UnpackedFloat.unpack Format.binary64 (packComponents Format.binary64 s b f)
    ofUnpacked u = if u.isNaN then .nan else ofComponents s b.toNat f.toNat := by
  by_cases hmax : b = -1#11
  · subst hmax
    rw [UnpackedFloat.unpack, unpackExponent_packComponents, if_pos rfl]
    split
    · rw [unpackSign_packComponents, Sign.ofBitVec_toBitVec]
      rfl
    · rfl
  have hmaxNat : b.toNat ≠ 2047 := fun h => hmax (BitVec.eq_of_toNat_eq h)
  rw [ofComponents, if_neg hmaxNat]
  by_cases hmin : b = 0#11
  · subst hmin
    by_cases hzero : f.toNat = 0
    · obtain rfl : f = 0#52 := BitVec.eq_of_toNat_eq hzero
      cases s <;> rfl
    · rw [unpack_subnormal_components s (Nat.pos_of_ne_zero hzero)]
      rfl
  · have hminNat : b.toNat ≠ 0 := fun h => hmin (BitVec.eq_of_toNat_eq h)
    rw [unpack_normal_components s hmin hmax]
    simp only [UnpackedFloat.isNaN, Bool.false_eq_true, if_false, if_neg hminNat,
      ofUnpacked, binadeStart, leastExponent, Binary64.finite.injEq]
    exact ⟨trivial, rfl, by omega⟩

theorem ofFloat_eq (x : Float) : ofFloat x = ofUnpacked x.toModel.unpack := by
  obtain ⟨s, b, f, hbits⟩ := exists_components x.toModel.toBits.toBitVec
  have hnan : x.isNaN = x.toModel.unpack.isNaN := rfl
  rw [ofFloat_of_components hbits, hnan, Float.Model.unpack, hbits, ofUnpacked_unpack_components]

theorem isCanonical_ofFloat (x : Float) : IsCanonical (ofFloat x) := by
  rw [ofFloat_eq]
  exact isCanonical_ofUnpacked (canonical_unpack x.toModel).1

/-- The parts determine the number, NaN included: there is only one. -/
theorem ofFloat_injective {x y : Float} (h : ofFloat x = ofFloat y) : x = y := by
  rw [ofFloat_eq, ofFloat_eq] at h
  have hmodel : x.toModel = y.toModel := by
    rw [← pack_unpack x.toModel, ofUnpacked_injective h, pack_unpack]
  cases x
  cases y
  exact congrArg Float.ofModel hmodel

end JointGuard.Decimal.Binary64
