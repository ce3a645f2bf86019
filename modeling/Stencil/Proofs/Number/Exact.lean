import Mathlib
import Stencil.Proofs.Number.Whole

/-!
# Doubles that are told by their value

A double is told by what it unpacks to, so two doubles that hold the same number are the same one,
but for the two zeros. A whole double in the range in which every whole number has a double of its
own can be handed on as the whole number, and only the sign of a zero is lost.

* `eq_of_unpack_eq`: equal parts make equal doubles
* `isNormal_of_unpack`: a finite double is subnormal or normal
* `ofInt_of_whole?`: the double of the whole number that a double holds
-/

namespace Stencil.Number

open Float.Model (UnpackedFloat)
open Float.Model.UnpackedFloat

variable {x y : Float} {sign : Sign} {m n : Nat} {e k : Int}

/-- A double is told by what it unpacks to. -/
theorem eq_of_unpack_eq (h : x.toModel.unpack = y.toModel.unpack) : x = y := by
  obtain ⟨⟨⟨bits⟩, hx⟩⟩ := x
  obtain ⟨⟨⟨bits'⟩, hy⟩⟩ := y
  have hbits : bits = bits' := (unpack_inj_of_valid hx hy (by decide)).1 h
  subst hbits
  rfl

/-! ## Finite doubles -/

/-- A finite double is subnormal or normal. -/
theorem isNormal_of_unpack {h : 0 < m} (hx : x.toModel.unpack = .finite sign m e h) :
    m < leadingBit ∧ e = leastExponent ∨ IsNormal m e := by
  have hparts : parts x = .finite (sign == .negative) m e := by
    rw [parts_eq, hx, partsOf_finite]
  unfold parts at hparts
  dsimp only at hparts
  split at hparts
  · split at hparts <;> cases hparts
  · rename_i hgreatest
    have hfraction : x.toBits.toNat % leadingBit < leadingBit := Nat.mod_lt _ (by decide)
    have hfield : x.toBits.toNat / leadingBit % 2048 < 2048 := Nat.mod_lt _ (by decide)
    split at hparts
    · obtain ⟨-, rfl, rfl⟩ := Parts.finite.inj hparts
      exact .inl ⟨hfraction, rfl⟩
    · rename_i hleast
      obtain ⟨-, rfl, rfl⟩ := Parts.finite.inj hparts
      refine .inr ⟨(Nat.log2_eq_iff h.ne').2 ?_, ?_, ?_⟩
      · simp only [leadingBit] at hfraction ⊢
        omega
      · rw [leastExponent]
        omega
      · rw [greatestExponent]
        omega

/-- A subnormal double is less than one, so it is not whole. -/
theorem not_dvd_of_subnormal (hpos : 0 < m) (h : m < leadingBit) {bits : Nat} (hbits : 52 ≤ bits) :
    m % Nat.pow 2 bits ≠ 0 := by
  have hpow : Nat.pow 2 52 ≤ Nat.pow 2 bits := Nat.pow_le_pow_right (by decide) hbits
  rw [Nat.mod_eq_of_lt (h.trans_le hpow)]
  exact hpos.ne'

/-- Nothing is rounded away if the significand is a multiple of the power that it is divided by. -/
theorem value_scaleDown (h : 0 ≤ e ∨ m % Nat.pow 2 (-e).toNat = 0) :
    (m : ℚ) * 2 ^ e = scaleDown m e := by
  unfold scaleDown
  split
  · rename_i he
    obtain ⟨k, rfl⟩ := Int.eq_ofNat_of_zero_le he
    rw [zpow_natCast, Int.toNat_natCast]
    exact_mod_cast rfl
  · rename_i he
    obtain ⟨k, rfl⟩ : ∃ k : Nat, e = -k := ⟨(-e).toNat, by omega⟩
    rw [Int.neg_neg, Int.toNat_natCast] at h ⊢
    have hdvd : Nat.pow 2 k ∣ m := Nat.dvd_of_mod_eq_zero (h.resolve_left he)
    have hpow : ((Nat.pow 2 k : Nat) : ℚ) = 2 ^ k := by exact_mod_cast rfl
    have hne : ((Nat.pow 2 k : Nat) : ℚ) ≠ 0 := by
      rw [hpow]
      exact pow_ne_zero k two_ne_zero
    rw [Nat.cast_div hdvd hne, hpow, zpow_neg, zpow_natCast, div_eq_mul_inv]

/-! ## Whole doubles -/

theorem IsNormal.unpack_neg {h : 0 < m} (hnormal : IsNormal m e)
    (hx : x.toModel.unpack = .finite sign m e h) :
    (-x).toModel.unpack = .finite (-sign) m e h := by
  change unpack .binary64 (pack .binary64 x.toModel.unpack.neg) = _
  rw [hx]
  exact hnormal.unpack_pack

theorem IsNormal.unpack_ofNat (h : IsNormal m e) (hvalue : (m : ℚ) * 2 ^ e = n) :
    (Float.ofNat n).toModel.unpack = .finite .positive m e h.pos := by
  rw [ofNat_eq_nearest, nearest_of_value h hvalue]
  exact h.unpack_pack

/-- A normal double that holds a whole number is the double of the number with its sign. -/
theorem IsNormal.eq_withSign {h : 0 < m} (hnormal : IsNormal m e)
    (hx : x.toModel.unpack = .finite sign m e h) (hvalue : (m : ℚ) * 2 ^ e = n) :
    x = withSign (sign == .negative) (Float.ofNat n) := by
  have hpositive := hnormal.unpack_ofNat hvalue
  refine eq_of_unpack_eq ?_
  cases sign with
  | positive => exact hx.trans hpositive.symm
  | negative => exact hx.trans (hnormal.unpack_neg hpositive).symm

theorem ofInt_signed (negative : Bool) (h : 0 < n) :
    Float.ofInt (signed negative n) = withSign negative (Float.ofNat n) := by
  cases negative with
  | false => rfl
  | true =>
    obtain ⟨n, rfl⟩ := Nat.exists_eq_succ_of_ne_zero h.ne'
    rfl

theorem isNegativeZero_zero (hx : x.toModel.unpack = .zero sign) :
    isNegativeZero x = (sign == .negative) := by
  rw [isNegativeZero, parts_eq, hx, partsOf_zero]
  cases sign <;> rfl

theorem isNegativeZero_finite {h : 0 < m} (hx : x.toModel.unpack = .finite sign m e h) :
    isNegativeZero x = false := by
  rw [isNegativeZero, parts_eq, hx, partsOf_finite]
  refine beq_false_of_ne fun heq => ?_
  obtain ⟨-, hzero, -⟩ := Parts.finite.inj heq
  exact h.ne' hzero

/-- The number that a whole double holds has this double, but for the sign of a zero. -/
theorem ofInt_of_whole? (h : whole? x = some k) :
    Float.ofInt k = if isNegativeZero x then 0 else x := by
  unfold whole? at h
  rw [parts_eq] at h
  cases hx : x.toModel.unpack with
  | notANumber => rw [hx] at h; cases h
  | infinity sign => rw [hx] at h; cases h
  | zero sign =>
    have hk : k = 0 := by
      rw [hx, partsOf_zero] at h
      dsimp only at h
      rw [Nat.zero_mod, if_pos (.inr rfl), scaleDown, if_neg (by decide), Nat.zero_div] at h
      cases sign <;> exact (Option.some_inj.1 h).symm
    rw [isNegativeZero_zero hx, hk]
    cases sign with
    | positive => exact eq_of_unpack_eq hx.symm
    | negative => rfl
  | finite sign m e hm =>
    rw [hx, partsOf_finite] at h
    dsimp only at h
    split at h
    · rename_i hwhole
      obtain rfl := Option.some_inj.1 h
      rw [isNegativeZero_finite hx, if_neg Bool.false_ne_true]
      rcases isNormal_of_unpack hx with ⟨hsmall, rfl⟩ | hnormal
      · exact absurd (hwhole.resolve_left (by decide))
          (not_dvd_of_subnormal hm hsmall (by decide))
      · have hvalue := value_scaleDown hwhole
        rw [ofInt_signed _ (value_pos hm hvalue)]
        exact (hnormal.eq_withSign hx hvalue).symm
    · cases h

/-- Only a finite double is whole. -/
theorem isFinite_of_whole? (h : whole? x = some k) : x.isFinite = true := by
  unfold whole? at h
  rw [parts_eq] at h
  change x.toModel.unpack.isFinite = true
  cases hx : x.toModel.unpack with
  | notANumber => rw [hx] at h; cases h
  | infinity sign => rw [hx] at h; cases h
  | zero | finite => rfl

/-- The negative zero is whole, and its number is zero. -/
theorem whole?_of_isNegativeZero (h : isNegativeZero x = true) : whole? x = some 0 := by
  rw [isNegativeZero, beq_iff_eq] at h
  rw [whole?, h]
  dsimp only
  rw [Nat.zero_mod, if_pos (.inr rfl), scaleDown, if_neg (by decide), Nat.zero_div]
  rfl

end Stencil.Number
