import Stencil.Number.Reading

/-!
# The sign of a double

Every double but the one that is no number has a sign. A double that is read from a decimal literal,
or summed up from digits, has the sign that it should have, and so is always a number.

* `HasSign`: a number with the sign, zeros and infinities included
* `HasSign.unpack_pack`: packing a number into its bits keeps the sign
* `positive_ofScientific`: what is read from digits is a number with a positive sign
* `isNaN_toFloat`: a decimal literal stands for a number
-/

namespace Stencil.Number

open Float.Model (UnpackedFloat)
open Float.Model.UnpackedFloat

/-! ## The fields of a double -/

theorem unpackSign_packComponents (sign : Sign) (exponent : BitVec 11) (mantissa : BitVec 52) :
    unpackSign (packComponents .binary64 sign exponent mantissa) = sign.toBitVec := by
  change (sign.toBitVec ++ exponent ++ mantissa).extractLsb' 63 1 = sign.toBitVec
  rw [BitVec.extractLsb'_append_eq_of_le (by decide),
    BitVec.extractLsb'_append_eq_of_le (by decide)]
  cases sign <;> rfl

theorem ofBitVec_toBitVec (sign : Sign) : Sign.ofBitVec sign.toBitVec = sign := by
  cases sign <;> rfl

/-- The double is a number with the sign: a zero, a finite number or an infinity. -/
inductive HasSign (sign : Sign) : UnpackedFloat → Prop
  | zero : HasSign sign (.zero sign)
  | infinity : HasSign sign (.infinity sign)
  | finite {m : Nat} {e : Int} {h : 0 < m} : HasSign sign (.finite sign m e h)

section

variable {sign : Sign} {u v : UnpackedFloat}

theorem HasSign.isNaN (h : HasSign sign u) : u.isNaN = false := by
  cases h <;> rfl

theorem HasSign.neg (h : HasSign sign u) : HasSign (-sign) u.neg := by
  cases h
  · exact .zero
  · exact .infinity
  · exact .finite

/-- Fields show a number with their sign, but for those of no number. -/
theorem hasSign_unpack (sign : Sign) (exponent : BitVec 11) (mantissa : BitVec 52)
    (h : exponent = -1#11 → mantissa = 0#52) :
    HasSign sign (unpack .binary64 (packComponents .binary64 sign exponent mantissa)) := by
  have hexponent : unpackExponent (packComponents .binary64 sign exponent mantissa) = exponent :=
    unpackExponent_packComponents
  have hmantissa : unpackMantissa (packComponents .binary64 sign exponent mantissa) = mantissa :=
    unpackMantissa_packComponents
  unfold unpack
  dsimp only
  rw [unpackSign_packComponents, ofBitVec_toBitVec]
  by_cases hones : exponent = -1#11
  · rw [if_pos (hexponent.trans hones), if_pos (hmantissa.trans (h hones))]
    exact .infinity
  rw [if_neg fun heq => hones (hexponent.symm.trans heq)]
  by_cases hzero : exponent = 0#11
  · rw [if_pos (hexponent.trans hzero)]
    by_cases hnone : mantissa = 0#52
    · rw [dif_pos (hmantissa.trans hnone)]
      exact .zero
    · rw [dif_neg fun heq => hnone (hmantissa.symm.trans heq)]
      exact .finite
  · rw [if_neg fun heq => hzero (hexponent.symm.trans heq)]
    exact .finite

theorem HasSign.unpack_pack (h : HasSign sign u) :
    HasSign sign (unpack .binary64 (pack .binary64 u)) := by
  cases h with
  | zero => exact hasSign_unpack sign 0 0 fun _ => rfl
  | infinity => exact hasSign_unpack sign _ 0 fun _ => rfl
  | @finite m e h =>
    unfold pack
    dsimp only
    split
    · exact hasSign_unpack sign _ 0 fun _ => rfl
    · rename_i hbound
      split
      · -- The greatest exponent is that of the infinities, which is out of bounds here.
        refine hasSign_unpack sign _ _ fun hexponent => ?_
        have hgreatest := congrArg BitVec.toNat hexponent
        simp at hgreatest
        omega
      · refine hasSign_unpack sign _ _ fun hexponent => ?_
        cases hexponent

/-! ## Operations -/

theorem hasSign_dite (sign : Sign) (m : Nat) (e : Int) :
    HasSign sign (if h : m = 0 then .zero sign else .finite sign m e (Nat.pos_of_ne_zero h)) := by
  by_cases hzero : m = 0
  · rw [dif_pos hzero]
    exact .zero
  · rw [dif_neg hzero]
    exact .finite

theorem hasSign_roundWithAccuracy (sign : Sign) (m : Nat) (e : Int) (accuracy : Accuracy) :
    HasSign sign (roundWithAccuracy .binary64 sign m e accuracy) := by
  unfold roundWithAccuracy
  exact hasSign_dite sign _ _

theorem positive_normalize (n : Nat) (e : Int) :
    HasSign .positive (UnpackedFloat.normalize .binary64 n e .positive) := by
  unfold UnpackedFloat.normalize
  split
  · rename_i hcompare
    have hlt := Int.compare_eq_lt.1 hcompare
    omega
  · exact .zero
  · exact hasSign_roundWithAccuracy ..

/-- The product of a number and a finite one, both with a positive sign. -/
theorem HasSign.mul (hu : HasSign .positive u) {m : Nat} {e : Int} {h : 0 < m} :
    HasSign .positive (mul .binary64 u (.finite .positive m e h)) := by
  cases hu
  · exact .zero
  · exact .infinity
  · exact hasSign_roundWithAccuracy ..

theorem HasSign.div (hu : HasSign .positive u) {m : Nat} {e : Int} {h : 0 < m} :
    HasSign .positive (div .binary64 u (.finite .positive m e h)) := by
  cases hu
  · exact .zero
  · exact .infinity
  · exact hasSign_roundWithAccuracy ..

theorem HasSign.add (hu : HasSign .positive u) (hv : HasSign .positive v) :
    HasSign .positive (add .binary64 u v) := by
  cases hu with
  | zero => cases hv <;> constructor
  | infinity => cases hv <;> constructor
  | finite =>
    cases hv with
    | zero => exact .finite
    | infinity => exact .infinity
    | finite => exact positive_normalize (_ + _) _

theorem positive_ofScientificModel (m : Nat) (e : Int) :
    HasSign .positive (ofScientific .binary64 m e) := by
  unfold ofScientific
  by_cases hzero : m = 0
  · rw [dif_pos hzero]
    exact .zero
  rw [dif_neg hzero]
  by_cases hlarge : 2 ^ 11 < e
  · rw [if_pos hlarge]
    exact .infinity
  rw [if_neg hlarge]
  by_cases hsmall : e < -((2 ^ 11 : Int) + m.log2)
  · rw [if_pos hsmall]
    exact .zero
  rw [if_neg hsmall]
  by_cases hwhole : 0 ≤ e
  · rw [if_pos hwhole]
    exact HasSign.finite.mul
  · rw [if_neg hwhole]
    exact HasSign.finite.div

end

/-! ## Doubles -/

/-- The double is a number with a positive sign. -/
def IsPositive (x : Float) : Prop :=
  HasSign .positive x.toModel.unpack

/-- Is the double a finite number above zero? -/
def isFinitePositive (x : Float) : Bool :=
  match x.toModel.unpack with
  | .finite .positive .. => true
  | _ => false

section

variable {x y : Float}

theorem isFinitePositive_eq_true (h : isFinitePositive x = true) :
    ∃ m e h, x.toModel.unpack = .finite .positive m e h := by
  unfold isFinitePositive at h
  generalize x.toModel.unpack = u at h
  cases u with
  | finite sign m e hm =>
    cases sign with
    | positive => exact ⟨m, e, hm, rfl⟩
    | negative => cases h
  | _ => cases h

theorem IsPositive.isNaN (h : IsPositive x) : x.isNaN = false :=
  HasSign.isNaN h

theorem IsPositive.isNaN_neg (h : IsPositive x) : (-x).isNaN = false :=
  h.neg.unpack_pack.isNaN

theorem IsPositive.add (hx : IsPositive x) (hy : IsPositive y) : IsPositive (x + y) :=
  (HasSign.add hx hy).unpack_pack

theorem IsPositive.mul (hx : IsPositive x) (hy : isFinitePositive y = true) :
    IsPositive (x * y) := by
  obtain ⟨m, e, h, hy⟩ := isFinitePositive_eq_true hy
  have hmul := HasSign.mul hx (m := m) (e := e) (h := h)
  rw [← hy] at hmul
  exact hmul.unpack_pack

theorem IsPositive.div (hx : IsPositive x) (hy : isFinitePositive y = true) :
    IsPositive (x / y) := by
  obtain ⟨m, e, h, hy⟩ := isFinitePositive_eq_true hy
  have hdiv := HasSign.div hx (m := m) (e := e) (h := h)
  rw [← hy] at hdiv
  exact hdiv.unpack_pack

end

/-! ## Literals -/

theorem positive_toFloat (n : UInt64) : IsPositive n.toFloat :=
  (positive_normalize n.toNat 0).unpack_pack

theorem isFinitePositive_powerOfTen (e : Fin Float.exactlyRepresentablePowersOfTen.size) :
    isFinitePositive Float.exactlyRepresentablePowersOfTen[e] = true := by
  decide +kernel +revert

/-- What is read from digits and a power of ten is a number with a positive sign. -/
theorem positive_ofScientific (m : Nat) (negative : Bool) (e : Nat) :
    IsPositive (Float.ofScientific m negative e) := by
  unfold Float.ofScientific
  split
  · rename_i hsmall
    have hpower := isFinitePositive_powerOfTen ⟨e, Nat.lt_succ_of_le hsmall.2⟩
    dsimp only
    split
    · exact (positive_toFloat _).div hpower
    · exact (positive_toFloat _).mul hpower
  · exact (positive_ofScientificModel _ _).unpack_pack

theorem positive_ofNat (n : Nat) : IsPositive (Float.ofNat n) :=
  positive_ofScientific n false 0

/-- A decimal stands for a number. -/
theorem isNaN_toFloat (d : Decimal) : d.toFloat.isNaN = false := by
  have hpositive : IsPositive (if d.mantissa = 0 ∨
        (Nat.toDigits 10 d.mantissa).length + d.exponent < underflowPower then 0
      else if overflowPower < (Nat.toDigits 10 d.mantissa).length + d.exponent then infinity
      else Float.ofScientific d.mantissa (d.exponent < 0) d.exponent.natAbs) := by
    split
    · exact positive_ofNat 0
    split
    · exact .infinity
    · exact positive_ofScientific ..
  rw [Decimal.toFloat, withSign]
  split
  · exact hpositive.isNaN_neg
  · exact hpositive.isNaN

end Stencil.Number
