import Stencil.Proofs.Number.Exact
import Stencil.Proofs.Number.Signs

/-!
# Whole numbers as doubles within bounds

A double without its fraction is a whole number with a sign. Such numbers are added to a length,
compared with it and turned into a word as the whole numbers are, as long as the length has a double
of its own. Where a sum is below zero, it does not matter how it is rounded.

* `holds_trunc`: a double without its fraction
* `Holds.add_neg`, `Holds.negative_add_neg`: a length and a negative number
* `toWord_of_holds`, `toWord_of_negative`: the word that a double is turned into
* `toIndex_of_holds`, `toIndex_neg`, `toIndex_of_infinite`: the index that a double is turned into
-/

namespace Stencil.Number

open Float.Model (UnpackedFloat Format)
open Float.Model.UnpackedFloat

variable {x y : Float} {negative : Bool} {m n p q : Nat} {e : Int}

/-! ## Fractions -/

theorem significand_lt (h : parts x = .finite negative m e) : m < exactBound := by
  rw [parts_eq] at h
  cases hx : x.toModel.unpack with
  | notANumber | infinity => rw [hx] at h; cases h
  | zero sign =>
    rw [hx, partsOf_zero] at h
    obtain ⟨-, rfl, -⟩ := Parts.finite.inj h
    decide
  | finite sign m e hm =>
    rw [hx, partsOf_finite] at h
    obtain ⟨-, rfl, -⟩ := Parts.finite.inj h
    rcases isNormal_of_unpack hx with ⟨hlt, -⟩ | hnormal
    · exact Nat.lt_trans hlt (by decide)
    · exact hnormal.bounds.2

/-- A double without its fraction is a whole number with the sign of the double. -/
theorem holds_trunc (h : parts x = .finite negative m e) :
    ∃ y, trunc x = withSign negative y ∧ Holds y (scaleDown m e) := by
  rw [trunc, h]
  dsimp only
  split
  · rename_i he
    rw [parts_eq] at h
    cases hx : x.toModel.unpack with
    | notANumber | infinity => rw [hx] at h; cases h
    | zero sign =>
      rw [hx, partsOf_zero] at h
      obtain ⟨-, -, rfl⟩ := Parts.finite.inj h
      exact absurd he (by decide)
    | finite sign m e hm =>
      rw [hx, partsOf_finite] at h
      obtain ⟨rfl, rfl, rfl⟩ := Parts.finite.inj h
      rcases isNormal_of_unpack hx with ⟨-, rfl⟩ | hnormal
      · exact absurd he (by decide)
      · have hvalue := value_scaleDown (m := m) (.inl he)
        exact ⟨_, hnormal.eq_withSign hx hvalue,
          .normal (hnormal.unpack_ofNat hvalue) hnormal hvalue⟩
  · rename_i he
    refine ⟨_, rfl, holds_ofNat_of_lt (Nat.lt_of_le_of_lt ?_ (significand_lt h))⟩
    rw [scaleDown, if_neg he]
    exact Nat.div_le_self _ _

/-! ## No numbers and infinities -/

theorem isNaN_iff : x.isNaN = true ↔ parts x = .nan := by
  have hunpack : x.isNaN = x.toModel.unpack.isNaN := rfl
  rw [hunpack, parts_eq]
  cases x.toModel.unpack with
  | notANumber => exact iff_of_true rfl rfl
  | _ => exact iff_of_false Bool.false_ne_true nofun

theorem unpack_of_infinite (h : parts x = .infinite negative) :
    x.toModel.unpack = .infinity (if negative then .negative else .positive) := by
  rw [parts_eq] at h
  cases hx : x.toModel.unpack with
  | infinity sign =>
    rw [hx] at h
    obtain rfl := Parts.infinite.inj h
    cases sign <;> rfl
  | notANumber | zero | finite => rw [hx] at h; cases h

/-! ## Comparing -/

theorem holds_zero : Holds 0 0 :=
  .zero rfl

theorem Holds.lesser (hx : Holds x p) (hy : Holds y q) : Holds (lesser x y) (min p q) := by
  rw [Number.lesser, hx.isNaN, if_neg Bool.false_ne_true]
  by_cases hlt : q < p
  · rw [if_pos ((hy.lt_iff hx).2 hlt), Nat.min_eq_right hlt.le]
    exact hy
  · rw [if_neg (mt (hy.lt_iff hx).1 hlt), Nat.min_eq_left (Nat.le_of_not_lt hlt)]
    exact hx

theorem Holds.greater_zero (h : Holds x p) : Number.greater x 0 = x := by
  rw [greater, h.isNaN, if_neg Bool.false_ne_true,
    if_neg (mt (h.lt_iff holds_zero).1 (Nat.not_lt_zero p))]

/-! ## Negative numbers -/

/-- The negative of a whole number. -/
theorem Holds.unpack_neg (h : Holds x p) :
    p = 0 ∧ (-x).toModel.unpack = .zero .negative ∨
      ∃ m e, ∃ hm : 0 < m, IsNormal m e ∧ (m : ℚ) * 2 ^ e = p ∧
        (-x).toModel.unpack = .finite .negative m e hm := by
  cases h with
  | zero h =>
    refine .inl ⟨rfl, ?_⟩
    change unpack .binary64 (pack .binary64 x.toModel.unpack.neg) = _
    rw [h]
    rfl
  | normal h hnormal hvalue => exact .inr ⟨_, _, _, hnormal, hvalue, hnormal.unpack_neg h⟩

/-- The negative of a number is less than zero, unless the number is zero. -/
theorem Holds.neg_lt_zero_iff (h : Holds x p) : -x < 0 ↔ 0 < p := by
  have hzero : (0 : Float).toModel.unpack = .zero .positive := rfl
  rw [lt_iff_compare, hzero]
  rcases h.unpack_neg with ⟨rfl, hneg⟩ | ⟨m, e, hm, -, hvalue, hneg⟩
  · rw [hneg]
    exact iff_of_false (by decide) (Nat.lt_irrefl 0)
  · rw [hneg]
    exact iff_of_true rfl (value_pos hm hvalue)

/-- What the sum of a normal number and the negative of another one is rounded from. -/
theorem add_finite {m m' : Nat} {e e' : Int} {hm : 0 < m} {hm' : 0 < m'}
    (hx : x.toModel.unpack = .finite .positive m e hm)
    (hy : y.toModel.unpack = .finite .negative m' e' hm')
    (hp : (m : ℚ) * 2 ^ e = p) (hq : (m' : ℚ) * 2 ^ e' = q) :
    ∃ (d : Int) (low : Int), (d : ℚ) * 2 ^ low = p - q ∧
      x + y = .ofModel (.pack (normalize .binary64 d low .positive)) := by
  refine ⟨(m <<< (e - min e e').toNat : Nat) - (m' <<< (e' - min e e').toNat : Nat), min e e',
    ?_, ?_⟩
  · push_cast
    rw [sub_mul, ← hp, ← hq]
    congr 1
    · exact_mod_cast value_shiftLeft (Int.min_le_left e e')
    · exact_mod_cast value_shiftLeft (Int.min_le_right e e')
  · change Float.ofModel (.pack (UnpackedFloat.add .binary64 x.toModel.unpack
      y.toModel.unpack)) = _
    rw [hx, hy]
    rfl

theorem nonneg_iff_of_value {d low : Int} (h : (d : ℚ) * 2 ^ low = p - q) : 0 ≤ d ↔ q ≤ p := by
  rw [← @Int.cast_nonneg_iff ℚ, ← mul_nonneg_iff_of_pos_right (zpow_pos two_pos low), h,
    sub_nonneg, Nat.cast_le]

/-- A number that is not greater is taken away as whole numbers are. -/
theorem Holds.add_neg (hx : Holds x p) (hy : Holds y q) (hle : q ≤ p) :
    x + -y = nearest (p - q) := by
  have hadd : x + -y = .ofModel (.pack (UnpackedFloat.add .binary64 x.toModel.unpack
      (-y).toModel.unpack)) := rfl
  rcases hy.unpack_neg with ⟨rfl, hneg⟩ | ⟨m', e', hm', -, hvalue', hneg⟩
  · cases hx with
    | zero hx =>
      rw [hadd, hx, hneg]
      rfl
    | normal hx hnormal hvalue =>
      rw [hadd, hx, hneg, Nat.sub_zero, nearest_of_value hnormal hvalue]
      rfl
  · have hq := value_pos hm' hvalue'
    cases hx with
    | zero => omega
    | normal hx hnormal hvalue =>
      obtain ⟨d, low, hd, hsum⟩ := add_finite hx hneg hvalue hvalue'
      obtain ⟨d, rfl⟩ := Int.eq_ofNat_of_zero_le ((nonneg_iff_of_value hd).2 hle)
      have hdiff : (d : ℚ) * 2 ^ low = (p - q : Nat) := by
        rw [Nat.cast_sub hle, ← hd, Int.cast_natCast]
      rw [hsum]
      rcases Nat.eq_zero_or_pos d with rfl | hpos
      · have hzero : p - q = 0 := by
          rw [Nat.cast_zero, zero_mul] at hdiff
          exact_mod_cast hdiff.symm
        rw [hzero]
        rfl
      · rw [normalize_natCast hpos.ne', nearest, round_eq_of_value hpos.ne' hdiff]

/-- If a greater number is taken away, the difference is negative, however it is rounded. -/
theorem Holds.negative_add_neg (hx : Holds x p) (hy : Holds y q) (hlt : p < q) :
    HasSign .negative (x + -y).toModel.unpack := by
  rcases hy.unpack_neg with ⟨rfl, -⟩ | ⟨m', e', hm', -, hvalue', hneg⟩
  · exact absurd hlt (Nat.not_lt_zero p)
  cases hx with
  | zero hx =>
    change HasSign .negative (unpack .binary64 (pack .binary64 (UnpackedFloat.add .binary64
      x.toModel.unpack (-y).toModel.unpack)))
    rw [hx, hneg]
    exact HasSign.finite.unpack_pack
  | normal hx hnormal hvalue =>
    obtain ⟨d, low, hd, hsum⟩ := add_finite hx hneg hvalue hvalue'
    have hcompare : compare d 0 = .lt :=
      Int.compare_eq_lt.2 (Int.not_le.1 (mt (nonneg_iff_of_value hd).1 (Nat.not_le_of_lt hlt)))
    rw [hsum]
    refine HasSign.unpack_pack ?_
    rw [UnpackedFloat.normalize, hcompare]
    exact hasSign_roundWithAccuracy ..

/-! ## Words -/

theorem toWord_of_holds (h : Holds x n) (hn : n < wordBound) : toWord x = n := by
  obtain ⟨m, e, hparts, hvalue⟩ := h.parts_eq
  rw [toWord, hparts]
  dsimp only
  rw [if_neg Bool.false_ne_true, scaleDown_of_value hvalue]
  exact Nat.min_eq_left (Nat.le_pred_of_lt hn)

theorem toWord_of_negative (h : HasSign .negative x.toModel.unpack) : toWord x = 0 := by
  rw [toWord, parts_eq]
  generalize x.toModel.unpack = u at h
  cases h <;> rfl

theorem toWord_greater_zero (h : HasSign .negative x.toModel.unpack) :
    toWord (greater x 0) = 0 := by
  have hnumber : x.isNaN = false := h.isNaN
  rw [greater, hnumber, if_neg Bool.false_ne_true]
  split
  · exact toWord_of_holds holds_zero (by decide)
  · exact toWord_of_negative h

/-! ## Indexes -/

section

variable {length : Nat} (hlength : length < exactBound)

include hlength

theorem toIndex_of_holds (h : Holds x n) : toIndex x length = min n length := by
  rw [toIndex, if_neg (mt (h.lt_iff holds_zero).1 (Nat.not_lt_zero n))]
  refine toWord_of_holds (h.lesser (holds_ofNat_of_lt hlength)) ?_
  exact Nat.lt_of_le_of_lt (Nat.min_le_right _ _) (Nat.lt_trans hlength (by decide))

/-- A negative number counts from the end, and is brought to the beginning if it is out of bounds,
even where the difference is rounded. -/
theorem toIndex_neg (h : Holds x n) (hn : 0 < n) : toIndex (-x) length = length - n := by
  have hholds := holds_ofNat_of_lt hlength
  rw [toIndex, if_pos (h.neg_lt_zero_iff.2 hn)]
  rcases Nat.lt_or_ge length n with hlt | hle
  · rw [toWord_greater_zero (hholds.negative_add_neg h hlt), Nat.sub_eq_zero_of_le hlt.le]
  · have hdiff : Holds (Float.ofNat (length - n)) (length - n) :=
      holds_ofNat_of_lt (Nat.lt_of_le_of_lt (Nat.sub_le _ _) hlength)
    rw [hholds.add_neg h hle, ← ofNat_eq_nearest, hdiff.greater_zero]
    refine toWord_of_holds hdiff (Nat.lt_of_le_of_lt (Nat.sub_le _ _) ?_)
    exact Nat.lt_trans hlength (by decide)

omit hlength in
/-- A negative zero is zero. -/
theorem toIndex_neg_zero (length : Nat) (h : Holds x 0) : toIndex (-x) length = 0 := by
  have hzero : (-x).toModel.unpack = .zero .negative := by
    rcases h.unpack_neg with ⟨-, hneg⟩ | ⟨m, e, hm, -, hvalue, -⟩
    · exact hneg
    · exact absurd (value_pos hm hvalue) (Nat.lt_irrefl 0)
  have hnumber : (-x).isNaN = false := congrArg UnpackedFloat.isNaN hzero
  have hlesser : ¬ Float.ofNat length < -x := by
    have hpositive : HasSign .positive (Float.ofNat length).toModel.unpack := positive_ofNat length
    rw [lt_iff_compare, hzero]
    generalize (Float.ofNat length).toModel.unpack = u at hpositive
    cases hpositive <;> nofun
  rw [toIndex, if_neg (mt h.neg_lt_zero_iff.1 (Nat.lt_irrefl 0)), lesser, hnumber,
    if_neg Bool.false_ne_true, if_neg hlesser]
  exact toWord_of_negative (hzero ▸ .zero)

theorem toIndex_of_infinite (h : parts x = .infinite negative) :
    toIndex x length = if negative then 0 else length := by
  have hholds := holds_ofNat_of_lt hlength
  have hunpack := unpack_of_infinite h
  have hzero : (0 : Float).toModel.unpack = .zero .positive := rfl
  cases negative with
  | true =>
    have hsum : HasSign .negative (Float.ofNat length + x).toModel.unpack := by
      change HasSign .negative (unpack .binary64 (pack .binary64 (UnpackedFloat.add .binary64
        (Float.ofNat length).toModel.unpack x.toModel.unpack)))
      rw [hunpack]
      cases hholds with
      | zero hlength => rw [hlength]; exact HasSign.infinity.unpack_pack
      | normal hlength => rw [hlength]; exact HasSign.infinity.unpack_pack
    have hneg : x < 0 := by
      rw [lt_iff_compare, hunpack, hzero]
      rfl
    rw [toIndex, if_pos hneg, toWord_greater_zero hsum]
    rfl
  | false =>
    have hnumber : x.isNaN = false := congrArg UnpackedFloat.isNaN hunpack
    have hpos : ¬ x < 0 := by
      rw [lt_iff_compare, hunpack, hzero]
      nofun
    have hlesser : Float.ofNat length < x := by
      rw [lt_iff_compare, hunpack]
      cases hholds with
      | zero hlength => rw [hlength]; rfl
      | normal hlength => rw [hlength]; rfl
    rw [toIndex, if_neg hpos, lesser, hnumber, if_neg Bool.false_ne_true, if_pos hlesser]
    exact toWord_of_holds hholds (Nat.lt_trans hlength (by decide))

end

end Stencil.Number
