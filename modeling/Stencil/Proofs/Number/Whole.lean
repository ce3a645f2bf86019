import Stencil.Proofs.Number.Nearest

/-!
# Doubles that hold whole numbers

Doubles that hold whole numbers are compared as these numbers are, and the numbers can be read off
their parts.

* `parts_eq`: taking a double apart is unpacking it
* `Holds.lt_iff`: comparing
* `Holds.whole?`: the number that a double holds
-/

namespace Stencil.Number

open Float.Model (UnpackedFloat Format totalExponent)
open Float.Model.UnpackedFloat

/-! ## The parts -/

/-- The parts of an unpacked double. -/
def partsOf : UnpackedFloat → Parts
  | .notANumber => .nan
  | .infinity sign => .infinite (sign == .negative)
  | .zero sign => .finite (sign == .negative) 0 leastExponent
  | .finite sign m e _ => .finite (sign == .negative) m e

theorem partsOf_zero (sign : Sign) :
    partsOf (.zero sign) = .finite (sign == .negative) 0 leastExponent :=
  rfl

theorem partsOf_finite (sign : Sign) {m : Nat} (e : Int) (h : 0 < m) :
    partsOf (.finite sign m e h) = .finite (sign == .negative) m e :=
  rfl

section

variable (b : BitVec 64)

theorem toNat_unpackExponent :
    (@unpackExponent .binary64 b).toNat = b.toNat / leadingBit % 2048 := by
  change (b.extractLsb' 52 11).toNat = _
  rw [BitVec.extractLsb'_toNat, Nat.shiftRight_eq_div_pow]
  rfl

theorem toNat_unpackMantissa :
    (@unpackMantissa .binary64 b).toNat = b.toNat % leadingBit := by
  change (b.extractLsb' 0 52).toNat = _
  rw [BitVec.extractLsb'_toNat, Nat.shiftRight_zero]
  rfl

theorem ofBitVec_unpackSign :
    (Sign.ofBitVec (@unpackSign .binary64 b) == .negative) = decide (signBit ≤ b.toNat) := by
  have hsign : (@unpackSign .binary64 b).toNat = b.toNat / signBit := by
    change (b.extractLsb' 63 1).toNat = _
    rw [BitVec.extractLsb'_toNat, Nat.shiftRight_eq_div_pow]
    have hlt : b.toNat / signBit < 2 := Nat.div_lt_of_lt_mul b.isLt
    exact Nat.mod_eq_of_lt hlt
  by_cases h : signBit ≤ b.toNat
  · have hne : @unpackSign .binary64 b ≠ 0#1 := by
      intro heq
      rw [heq] at hsign
      have := Nat.div_pos h (by decide)
      simp at hsign
      omega
    rw [Sign.ofBitVec, if_neg hne, decide_eq_true h]
    rfl
  · have heq : @unpackSign .binary64 b = 0#1 := by
      apply BitVec.eq_of_toNat_eq
      rw [hsign, Nat.div_eq_of_lt (Nat.lt_of_not_le h)]
      rfl
    rw [Sign.ofBitVec, if_pos heq, decide_eq_false h]
    rfl

end

/-- Taking a double apart is unpacking it. -/
theorem parts_eq (x : Float) : parts x = partsOf x.toModel.unpack := by
  have hbits : x.toBits.toNat = x.toModel.toBits.toBitVec.toNat := rfl
  change _ = partsOf (unpack .binary64 x.toModel.toBits.toBitVec)
  unfold parts
  dsimp only
  rw [hbits]
  generalize x.toModel.toBits.toBitVec = b
  have hones : @unpackExponent .binary64 b = -1#11 ↔ b.toNat / leadingBit % 2048 = 2047 := by
    rw [← toNat_unpackExponent, ← BitVec.toNat_inj]
    rfl
  have hzero : @unpackExponent .binary64 b = 0#11 ↔ b.toNat / leadingBit % 2048 = 0 := by
    rw [← toNat_unpackExponent, ← BitVec.toNat_inj]
    rfl
  have hnone : @unpackMantissa .binary64 b = 0#52 ↔ b.toNat % leadingBit = 0 := by
    rw [← toNat_unpackMantissa, ← BitVec.toNat_inj]
    rfl
  unfold unpack
  dsimp only
  rw [← ofBitVec_unpackSign]
  by_cases h : b.toNat / leadingBit % 2048 = 2047
  · rw [if_pos h, if_pos (hones.2 h)]
    by_cases h' : b.toNat % leadingBit = 0
    · rw [if_pos h', if_pos (hnone.2 h')]
      rfl
    · rw [if_neg h', if_neg (mt hnone.1 h')]
      rfl
  rw [if_neg h, if_neg (mt hones.1 h)]
  by_cases h : b.toNat / leadingBit % 2048 = 0
  · rw [if_pos h, if_pos (hzero.2 h)]
    by_cases h' : b.toNat % leadingBit = 0
    · rw [dif_pos (hnone.2 h'), h']
      rfl
    · rw [dif_neg (mt hnone.1 h'), partsOf_finite, toNat_unpackMantissa, toNat_unpackExponent, h]
      rfl
  · rw [if_neg h, if_neg (mt hzero.1 h), partsOf_finite, toNat_leadingBit, toNat_unpackMantissa,
      toNat_unpackExponent, Nat.add_comm]
    rfl

/-! ## Comparing -/

section

variable {x y : Float} {m m' p q n : Nat} {e e' : Int}

theorem IsNormal.bounds (h : IsNormal m e) : leadingBit ≤ m ∧ m < exactBound :=
  (Nat.log2_eq_iff h.pos.ne').1 h.log2

/-- The normal double with the greater exponent is the greater one. -/
theorem IsNormal.value_lt (h : IsNormal m e) (h' : IsNormal m' e') (he : e < e') :
    (m : ℚ) * 2 ^ e < m' * 2 ^ e' := by
  have hm : (m : ℚ) < 2 * m' := by
    have := h.bounds
    have := h'.bounds
    have hnat : m < 2 * m' := by
      simp only [leadingBit, exactBound] at *
      omega
    exact_mod_cast hnat
  have hpow : (2 : ℚ) ^ (e + 1) ≤ 2 ^ e' := zpow_le_zpow_right₀ one_le_two he
  calc (m : ℚ) * 2 ^ e < 2 * m' * 2 ^ e := mul_lt_mul_of_pos_right hm (zpow_pos two_pos e)
    _ = m' * 2 ^ (e + 1) := by rw [zpow_add_one₀ two_ne_zero]; ring
    _ ≤ m' * 2 ^ e' := mul_le_mul_of_nonneg_left hpow (Nat.cast_nonneg m')

/-- Normal doubles are compared by their exponents and then by their significands. -/
theorem IsNormal.compare_eq (h : IsNormal m e) (h' : IsNormal m' e')
    (hp : (m : ℚ) * 2 ^ e = p) (hq : (m' : ℚ) * 2 ^ e' = q) :
    (compare e e').then (compare m m') = compare p q := by
  rcases lt_trichotomy e e' with he | rfl | he
  · have hlt : p < q := by
      have := h.value_lt h' he
      rw [hp, hq] at this
      exact_mod_cast this
    rw [compare_lt_iff_lt.2 he, compare_lt_iff_lt.2 hlt]
    rfl
  · have hpos : (0 : ℚ) < 2 ^ e := zpow_pos two_pos e
    have hlt {a b c d : Nat} (ha : (a : ℚ) * 2 ^ e = c) (hb : (b : ℚ) * 2 ^ e = d) :
        a < b ↔ c < d := by
      rw [← Nat.cast_lt (α := ℚ), ← Nat.cast_lt (α := ℚ) (m := c), ← ha, ← hb,
        mul_lt_mul_iff_left₀ hpos]
    rw [compare_eq_iff_eq.2 rfl, Ordering.then]
    rcases lt_trichotomy m m' with hm | rfl | hm
    · rw [compare_lt_iff_lt.2 hm, compare_lt_iff_lt.2 ((hlt hp hq).1 hm)]
    · have heq : p = q := by
        rw [hp] at hq
        exact_mod_cast hq
      rw [compare_eq_iff_eq.2 rfl, compare_eq_iff_eq.2 heq]
    · rw [compare_gt_iff_gt.2 hm, compare_gt_iff_gt.2 ((hlt hq hp).1 hm)]
  · have hlt : q < p := by
      have := h'.value_lt h he
      rw [hp, hq] at this
      exact_mod_cast this
    rw [compare_gt_iff_gt.2 he, compare_gt_iff_gt.2 hlt]
    rfl

theorem value_pos (h : 0 < m) (hp : (m : ℚ) * 2 ^ e = p) : 0 < p := by
  have hpos : (0 : ℚ) < m * 2 ^ e := mul_pos (Nat.cast_pos.2 h) (zpow_pos two_pos e)
  rw [hp] at hpos
  exact_mod_cast hpos

/-- Doubles that hold whole numbers compare as the numbers do. -/
theorem Holds.compare_eq (hx : Holds x p) (hy : Holds y q) :
    x.toModel.unpack.compare y.toModel.unpack = some (compare p q) := by
  cases hx with
  | zero hx =>
    cases hy with
    | zero hy => rw [hx, hy]; rfl
    | normal hy hnormal hq =>
      rw [hx, hy, compare_lt_iff_lt.2 (value_pos hnormal.pos hq)]
      rfl
  | normal hx hnormal hp =>
    cases hy with
    | zero hy =>
      rw [hx, hy, compare_gt_iff_gt.2 (value_pos hnormal.pos hp)]
      rfl
    | normal hy hnormal' hq =>
      rw [hx, hy, ← hnormal.compare_eq hnormal' hp hq]
      rfl

theorem lt_iff_compare : x < y ↔ x.toModel.unpack.compare y.toModel.unpack = some .lt :=
  decide_eq_true_iff.trans beq_iff_eq

theorem Holds.lt_iff (hx : Holds x p) (hy : Holds y q) : x < y ↔ p < q := by
  rw [lt_iff_compare, hx.compare_eq hy, Option.some_inj, compare_lt_iff_lt]

theorem Holds.isNaN (h : Holds x n) : x.isNaN = false := by
  change x.toModel.unpack.isNaN = false
  cases h with
  | zero h => rw [h]; rfl
  | normal h => rw [h]; rfl

/-! ## The whole part -/

theorem Holds.parts_eq (h : Holds x n) :
    ∃ m e, parts x = .finite false m e ∧ (m : ℚ) * 2 ^ e = n := by
  cases h with
  | zero h => exact ⟨0, leastExponent, by rw [Number.parts_eq, h]; rfl, by norm_num⟩
  | @normal m _ e _ h _ hvalue => exact ⟨m, e, by rw [Number.parts_eq, h]; rfl, hvalue⟩

/-- A significand with a negative exponent is a multiple of the power that it is divided by. -/
theorem eq_mul_of_value (he : e ≤ 0) (h : (m : ℚ) * 2 ^ e = n) : m = n * Nat.pow 2 (-e).toNat := by
  obtain ⟨k, rfl⟩ : ∃ k : Nat, e = -k := ⟨(-e).toNat, by omega⟩
  rw [zpow_neg, zpow_natCast, ← div_eq_mul_inv, div_eq_iff (pow_ne_zero k two_ne_zero)] at h
  rw [Int.neg_neg, Int.toNat_natCast]
  exact_mod_cast h

theorem eq_of_value_nonneg (he : 0 ≤ e) (h : (m : ℚ) * 2 ^ e = n) : n = m * Nat.pow 2 e.toNat := by
  obtain ⟨k, rfl⟩ := Int.eq_ofNat_of_zero_le he
  exact_mod_cast h.symm

theorem scaleDown_of_value (h : (m : ℚ) * 2 ^ e = n) : scaleDown m e = n := by
  unfold scaleDown
  split
  · rename_i he
    exact (eq_of_value_nonneg he h).symm
  · rename_i he
    rw [eq_mul_of_value (by omega) h]
    exact Nat.mul_div_cancel n (Nat.two_pow_pos _)

theorem Holds.whole? (h : Holds x n) : whole? x = some (n : Int) := by
  obtain ⟨m, e, hparts, hvalue⟩ := h.parts_eq
  have hdvd : 0 ≤ e ∨ m % Nat.pow 2 (-e).toNat = 0 := by
    refine (Int.le_total 0 e).imp_right fun he => ?_
    rw [eq_mul_of_value he hvalue]
    exact Nat.mul_mod_left n _
  rw [Number.whole?, hparts]
  dsimp only
  rw [if_pos hdvd, scaleDown_of_value hvalue]
  rfl

/-- Whole numbers are added exactly as long as the sum fits into a significand. -/
theorem ofNat_add (h : p + q < exactBound) :
    Float.ofNat p + Float.ofNat q = Float.ofNat (p + q) := by
  have hp := holds_ofNat_of_lt (Nat.lt_of_le_of_lt (Nat.le_add_right p q) h)
  have hq := holds_ofNat_of_lt (Nat.lt_of_le_of_lt (Nat.le_add_left q p) h)
  exact (hp.add hq).trans (ofNat_eq_nearest (p + q)).symm

end

end Stencil.Number
