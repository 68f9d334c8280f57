import JointGuard.Fault
import JointGuard.Proofs.Decimal.ReadsBack

/-! # Texts of numbers

The positional text of a number can be read back: the digits around the point give the decimal, and
the decimal is rounded to the number.  Hence no two numbers share a text, zeros of either sign
included, and a text holds no characters but digits, a point, a minus and those of the two words
for the special values. -/

namespace JointGuard.Decimal
open Floating

section
variable (count : ℕ) (place : ℤ)

theorem isDigit_of_mem_positional {c : Char}
    (hc : c ∈ (positional count place).1 ++ (positional count place).2) : c.isDigit := by
  have hdigit {c : Char} (hc : c ∈ Nat.toDigits 10 count) : c.isDigit :=
    Nat.isDigit_of_mem_toDigits (by decide) le_rfl hc
  have hzero {n : ℕ} {c : Char} (hc : c ∈ List.replicate n '0') : c.isDigit := by
    rw [List.eq_of_mem_replicate hc]
    rfl
  simp only [positional] at hc
  split at hc
  · rw [List.append_nil, List.mem_append] at hc
    exact hc.elim hdigit hzero
  · rw [List.splitAt_eq, List.take_append_drop, List.mem_append] at hc
    exact hc.elim hzero hdigit

/-- The value of digits before and after a point. -/
def pointValue (whole fraction : List Char) : ℚ :=
  Nat.ofDigitChars 10 (whole ++ fraction) 0 / 10 ^ fraction.length

theorem pointValue_positional :
    pointValue (positional count place).1 (positional count place).2 = count * 10 ^ place := by
  simp only [positional]
  split
  · rename_i hplace
    simp only [pointValue, List.append_nil, Nat.ofDigitChars_append, Nat.ofDigitChars_ten_toDigits,
      Nat.ofDigitChars_replicate_zero, List.length_nil, pow_zero, div_one]
    push_cast
    rw [mul_comm, ← zpow_natCast, Int.toNat_of_nonneg hplace]
  · rename_i hplace
    have hlength (n : ℕ) : (List.replicate ((-place).toNat + 1 - n) '0').length + n -
        ((List.replicate ((-place).toNat + 1 - n) '0').length + n - (-place).toNat) =
          (-place).toNat := by
      rw [List.length_replicate]
      omega
    simp only [pointValue, List.splitAt_eq, List.take_append_drop, Nat.ofDigitChars_append,
      Nat.ofDigitChars_replicate_zero, mul_zero, Nat.ofDigitChars_ten_toDigits, List.length_drop,
      List.length_append, hlength]
    rw [div_eq_mul_inv, ← zpow_natCast, ← zpow_neg, Int.toNat_of_nonneg (by omega), neg_neg]

end

/-- The value of positional text. -/
def reading (text : List Char) : ℚ :=
  pointValue (text.takeWhile (· ≠ '.')) (text.dropWhile (· ≠ '.')).tail

section
variable {whole fraction : List Char}

theorem ne_point_of_isDigit (h : ∀ c ∈ whole, c.isDigit) : ∀ c ∈ whole, decide (c ≠ '.') := by
  intro c hc
  refine decide_eq_true fun heq => ?_
  have hdigit := h c hc
  rw [heq] at hdigit
  exact absurd hdigit (by decide)

theorem reading_whole (h : ∀ c ∈ whole, c.isDigit) : reading whole = pointValue whole [] := by
  have hpoint := ne_point_of_isDigit h
  rw [reading, List.takeWhile_eq_self_iff.2 hpoint, List.dropWhile_eq_nil_iff.2 hpoint,
    List.tail_nil]

theorem reading_point (h : ∀ c ∈ whole, c.isDigit) :
    reading (whole ++ '.' :: fraction) = pointValue whole fraction := by
  have hpoint := ne_point_of_isDigit h
  rw [reading, List.takeWhile_append_of_pos hpoint, List.dropWhile_append_of_pos hpoint]
  simp

end

/-- The decimal that stands for a number. -/
def decimal (m : ℕ) (e : ℤ) : ℕ × ℤ := if m = 0 then (0, 0) else shortest m e

section
variable {m n : ℕ} {e k : ℤ} {negative : Bool}

theorem toGrid_decimal (h : (Binary64.finite negative m e).IsCanonical) :
    toGrid ((decimal m e).1 * 10 ^ (decimal m e).2) = m * 2 ^ e := by
  rw [decimal]
  split
  · rename_i hm
    simp [hm]
  · rename_i hm
    exact toGrid_shortest h hm

theorem ulpExponent_of_isCanonical (h : (Binary64.finite negative m e).IsCanonical) (hm : m ≠ 0) :
    ulpExponent (m * 2 ^ e) = e := by
  obtain ⟨hlt, he, hfull⟩ := h
  have hlog : m.log2 < 53 := (Nat.log2_lt hm).2 hlt
  have hlow : 2 ^ 52 ≤ m → 52 ≤ m.log2 := (Nat.le_log2 hm).2
  rw [ulpExponent_natCast_mul_zpow hm]
  omega

/-- A mantissa and an exponent are determined by the value. -/
theorem eq_of_mul_zpow_eq (hm : (Binary64.finite negative m e).IsCanonical)
    (hn : (Binary64.finite negative n k).IsCanonical) (h : (m : ℚ) * 2 ^ e = n * 2 ^ k) :
    m = n ∧ e = k := by
  have hiff : m = 0 ↔ n = 0 := by
    rw [← Nat.cast_eq_zero (R := ℚ), ← Nat.cast_eq_zero (R := ℚ),
      ← mul_eq_zero_iff_right (zpow_ne_zero e two_ne_zero), h,
      mul_eq_zero_iff_right (zpow_ne_zero k two_ne_zero)]
  by_cases hzero : m = 0
  · have hzero' := hiff.1 hzero
    subst hzero hzero'
    exact ⟨rfl, (hm.2.2.resolve_left (by decide)).trans (hn.2.2.resolve_left (by decide)).symm⟩
  · have he : e = k := by
      rw [← ulpExponent_of_isCanonical hm hzero, h,
        ulpExponent_of_isCanonical hn (mt hiff.2 hzero)]
    subst he
    exact ⟨by exact_mod_cast mul_right_cancel₀ (zpow_ne_zero e two_ne_zero) h, rfl⟩

theorem toList_magnitude (m : ℕ) (e : ℤ) :
    let digits := positional (decimal m e).1 (decimal m e).2
    (Fault.numbers.magnitude m e).toList =
      if digits.2 = [] then digits.1 else digits.1 ++ '.' :: digits.2 := by
  rw [Layout.magnitude, ← decimal]
  obtain ⟨count, place⟩ := decimal m e
  dsimp only
  rcases positional count place with ⟨whole, _ | ⟨c, fraction⟩⟩
  · simp [Fault.numbers]
  · simp

theorem reading_magnitude (m : ℕ) (e : ℤ) : reading (Fault.numbers.magnitude m e).toList =
    (decimal m e).1 * 10 ^ (decimal m e).2 := by
  have hdigit : ∀ c ∈ (positional (decimal m e).1 (decimal m e).2).1, c.isDigit :=
    fun c hc => isDigit_of_mem_positional _ _ (List.mem_append_left _ hc)
  rw [← pointValue_positional, toList_magnitude]
  split
  · rename_i hwhole
    rw [reading_whole hdigit, hwhole]
  · exact reading_point hdigit

theorem mem_magnitude {c : Char} (hc : c ∈ (Fault.numbers.magnitude m e).toList) :
    c.isDigit ∨ c = '.' := by
  have hdigit : c ∈ _ → c.isDigit :=
    isDigit_of_mem_positional (decimal m e).1 (decimal m e).2
  rw [toList_magnitude] at hc
  grind

theorem eq_of_magnitude_eq (hm : (Binary64.finite negative m e).IsCanonical)
    (hn : (Binary64.finite negative n k).IsCanonical)
    (h : Fault.numbers.magnitude m e = Fault.numbers.magnitude n k) : m = n ∧ e = k := by
  apply eq_of_mul_zpow_eq hm hn
  rw [← toGrid_decimal hm, ← toGrid_decimal hn, ← reading_magnitude, ← reading_magnitude, h]

end

namespace Binary64

def negative : Binary64 → Bool
  | .nan => false
  | .infinite negative => negative
  | .finite negative _ _ => negative

/-- The text of a number without its sign. -/
def word : Binary64 → String
  | .nan => "NaN"
  | .infinite _ => "inf"
  | .finite _ mantissa exponent => Fault.numbers.magnitude mantissa exponent

@[simp] theorem toList_nan : "NaN".toList = ['N', 'a', 'N'] := by decide +kernel

@[simp] theorem toList_inf : "inf".toList = ['i', 'n', 'f'] := by decide +kernel

theorem mem_word {u : Binary64} {c : Char} (hc : c ∈ u.word.toList) :
    c.isDigit ∨ c ∈ ['.', 'N', 'a', 'i', 'n', 'f'] := by
  cases u with
  | nan =>
    rw [word, toList_nan] at hc
    grind
  | infinite =>
    rw [word, toList_inf] at hc
    grind
  | finite =>
    rcases mem_magnitude hc with hdigit | rfl
    · exact .inl hdigit
    · exact .inr (by decide)

theorem minus_notMem_word (u : Binary64) : '-' ∉ u.word.toList := mt mem_word (by decide)

theorem magnitude_ne {s : String} {c : Char} (hc : c ∈ s.toList) (hother : ¬(c.isDigit ∨ c = '.'))
    (m : ℕ) (e : ℤ) : Fault.numbers.magnitude m e ≠ s := by
  rintro rfl
  exact hother (mem_magnitude hc)

theorem magnitude_ne_nan (m : ℕ) (e : ℤ) : Fault.numbers.magnitude m e ≠ "NaN" :=
  magnitude_ne (c := 'N') (by simp) (by decide) m e

theorem magnitude_ne_inf (m : ℕ) (e : ℤ) : Fault.numbers.magnitude m e ≠ "inf" :=
  magnitude_ne (c := 'i') (by simp) (by decide) m e

/-- The word and the sign determine a number. -/
theorem eq_of_word_eq {u v : Binary64} (hu : u.IsCanonical) (hv : v.IsCanonical)
    (hsign : u.negative = v.negative) (h : u.word = v.word) : u = v := by
  cases u <;> cases v <;> simp only [word, negative] at h hsign
  case nan.nan => rfl
  case infinite.infinite => rw [hsign]
  case finite.finite =>
    subst hsign
    obtain ⟨rfl, rfl⟩ := eq_of_magnitude_eq hu hv h
    rfl
  case nan.infinite => exact absurd h (by decide)
  case infinite.nan => exact absurd h (by decide)
  case nan.finite => exact absurd h.symm (magnitude_ne_nan _ _)
  case finite.nan => exact absurd h (magnitude_ne_nan _ _)
  case infinite.finite => exact absurd h.symm (magnitude_ne_inf _ _)
  case finite.infinite => exact absurd h (magnitude_ne_inf _ _)

end Binary64

theorem toList_sign (negative : Bool) :
    (Layout.sign negative).toList = if negative then ['-'] else [] := by
  cases negative <;> decide +kernel

theorem text_numbers (x : Float) : Fault.numbers.text x =
    Layout.sign (Binary64.ofFloat x).negative ++ (Binary64.ofFloat x).word := by
  rw [Layout.text]
  cases Binary64.ofFloat x with
  | nan => decide +kernel
  | infinite => rfl
  | finite => rfl

theorem eq_of_sign_append_eq {a b : Bool} {s t : String} (hs : '-' ∉ s.toList)
    (ht : '-' ∉ t.toList) (h : Layout.sign a ++ s = Layout.sign b ++ t) : a = b ∧ s = t := by
  rw [← String.toList_inj, String.toList_append, String.toList_append, toList_sign,
    toList_sign] at h
  cases a <;> cases b <;>
    simp only [Bool.false_eq_true, if_true, if_false, List.nil_append, List.cons_append] at h
  case false.false => exact ⟨rfl, String.toList_inj.1 h⟩
  case true.true => exact ⟨rfl, String.toList_inj.1 (List.cons.inj h).2⟩
  case true.false => exact absurd (h ▸ List.mem_cons_self) ht
  case false.true => exact absurd (h ▸ List.mem_cons_self) hs

/-- No two numbers share a text. -/
theorem eq_of_text_numbers_eq {x y : Float} (h : Fault.numbers.text x = Fault.numbers.text y) :
    x = y := by
  rw [text_numbers, text_numbers] at h
  obtain ⟨hsign, hword⟩ := eq_of_sign_append_eq (Binary64.minus_notMem_word _)
    (Binary64.minus_notMem_word _) h
  exact Binary64.ofFloat_injective (Binary64.eq_of_word_eq (Binary64.isCanonical_ofFloat x)
    (Binary64.isCanonical_ofFloat y) hsign hword)

example : Fault.numbers.text (-0.0) ≠ Fault.numbers.text 0.0 := by decide +kernel

theorem mem_text_numbers {x : Float} {c : Char} (hc : c ∈ (Fault.numbers.text x).toList) :
    c.isDigit ∨ c ∈ ['-', '.', 'N', 'a', 'i', 'n', 'f'] := by
  rw [text_numbers, String.toList_append, List.mem_append, toList_sign] at hc
  rcases hc with hsign | hword
  · split at hsign <;> grind
  · have := Binary64.mem_word hword
    grind

end JointGuard.Decimal
