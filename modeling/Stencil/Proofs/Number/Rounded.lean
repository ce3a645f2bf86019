import Stencil.Proofs.Number.Whole

/-!
# Whole numbers that are rounded

The double of a whole number is a positive number, and it is zero only for zero. For a number that
does not fit into a significand this needs a look at the rounding: as many bits are cut off as are
too many, and rounding up may make room for one more.

* `round_of_large`: a number too long for a significand is rounded to a full one
* `ofNat_beq_zero`, `ofNat_beq_neg_one`: what the double of a whole number equals
-/

namespace Stencil.Number

open Float.Model (UnpackedFloat Format totalExponent)
open Float.Model.UnpackedFloat

theorem mantissa_shiftRight (em : ExtendedMantissa) (k : Nat) :
    (em >>> k).mantissa = em.mantissa / 2 ^ k := by
  induction k with
  | zero => exact (Nat.div_one _).symm
  | succ k ih =>
    rw [shiftRight_add, Nat.pow_succ, ← Nat.div_div_eq_div_mul, ← ih]
    rfl

/-- Rounding adds one at most. -/
theorem roundedMantissa_bounds (em : ExtendedMantissa) :
    em.mantissa ≤ em.roundedMantissa ∧ em.roundedMantissa ≤ em.mantissa + 1 := by
  unfold ExtendedMantissa.roundedMantissa Accuracy.roundToNearestEven
  split <;> omega

section

variable {m n : Nat} {e : Int}

/-- One bit too many is a power of two, and the bit that is cut off is zero. -/
theorem shiftToTargetExponent_of_log2 (hlower : leadingBit ≤ m) (hupper : m ≤ exactBound)
    (he : 0 ≤ e) :
    ∃ m' e', shiftToTargetExponent .binary64 m e .exact = (⟨m', false, false⟩, e') ∧
      m'.log2 = 52 ∧ 0 ≤ e' := by
  have hpos : m ≠ 0 := by
    rintro rfl
    cases hlower
  rcases Nat.lt_or_eq_of_le hupper with hlt | rfl
  · have hlog : m.log2 = 52 := (Nat.log2_eq_iff hpos).2 ⟨hlower, hlt⟩
    refine ⟨m, e, ?_, hlog, he⟩
    have htarget : Format.binary64.targetExponent (totalExponent m e) = e := by
      simp only [Format.targetExponent, totalExponent, hlog, mantissaBits_eq, Format.minExponent]
      omega
    simp only [shiftToTargetExponent, shiftToExponent, htarget, Int.sub_self]
    exact Prod.ext rfl (Int.add_zero e)
  · refine ⟨leadingBit, e + 1, ?_, by decide, by omega⟩
    have hlog : exactBound.log2 = 53 := by decide
    have htarget : Format.binary64.targetExponent (totalExponent exactBound e) = e + 1 := by
      simp only [Format.targetExponent, totalExponent, hlog, mantissaBits_eq, Format.minExponent]
      omega
    have hamount : (e + 1 - e).toNat = 1 := by omega
    simp only [shiftToTargetExponent, shiftToExponent, htarget, hamount]
    rfl

/-- A number too long for a significand is rounded to a full one. -/
theorem round_of_large (hn : exactBound ≤ n) :
    ∃ m e h, UnpackedFloat.round .binary64 .positive n 0 = .finite .positive m e h ∧
      m.log2 = 52 ∧ 0 ≤ e := by
  have hne : n ≠ 0 := by
    rintro rfl
    cases hn
  have hlog : 53 ≤ n.log2 := (Nat.le_log2 hne).2 hn
  have htarget : Format.binary64.targetExponent (totalExponent n 0) = (n.log2 - 52 : Nat) := by
    simp only [Format.targetExponent, totalExponent, mantissaBits_eq, Format.minExponent]
    omega
  have hfirst : shiftToTargetExponent .binary64 n 0 .exact =
      ((⟨n, false, false⟩ : ExtendedMantissa) >>> (n.log2 - 52), ((n.log2 - 52 : Nat) : Int)) := by
    simp only [shiftToTargetExponent, shiftToExponent, htarget, Int.sub_zero, Int.toNat_natCast,
      Int.zero_add]
    rfl
  have hmantissa := mantissa_shiftRight ⟨n, false, false⟩ (n.log2 - 52)
  generalize (⟨n, false, false⟩ : ExtendedMantissa) >>> (n.log2 - 52) = em at hfirst hmantissa
  have hbounds : leadingBit ≤ em.mantissa ∧ em.mantissa < exactBound := by
    have hlower := Nat.log2_self_le hne
    have hupper := Nat.lt_log2_self (n := n)
    have hsplit : n.log2 = 52 + (n.log2 - 52) := by omega
    rw [hmantissa, Nat.le_div_iff_mul_le (Nat.two_pow_pos _),
      Nat.div_lt_iff_lt_mul (Nat.two_pow_pos _)]
    constructor
    · calc leadingBit * 2 ^ (n.log2 - 52) = 2 ^ n.log2 := by
            rw [leadingBit, ← Nat.pow_add 2 52, ← hsplit]
        _ ≤ n := hlower
    · calc n < 2 ^ (n.log2 + 1) := hupper
        _ = exactBound * 2 ^ (n.log2 - 52) := by
            rw [exactBound, ← Nat.pow_add 2 53]
            congr 1
            omega
  have hrounded := roundedMantissa_bounds em
  obtain ⟨m, e, hsecond, hm, he⟩ :=
    shiftToTargetExponent_of_log2 (m := em.roundedMantissa) (e := ((n.log2 - 52 : Nat) : Int))
      (by omega) (by omega) (by omega)
  have hpos : m ≠ 0 := by
    rintro rfl
    cases hm
  refine ⟨m, e, Nat.pos_of_ne_zero hpos, ?_, hm, he⟩
  rw [round_eq_roundWithAccuracy (by omega), roundWithAccuracy, hfirst]
  dsimp only
  rw [hsecond]
  exact dif_neg hpos

theorem unpack_pack_of_greater (h : 0 < m) (he : greatestExponent < e) :
    unpack .binary64 (pack .binary64 (.finite .positive m e h)) = .infinity .positive := by
  have hpack : pack .binary64 (.finite .positive m e h) = packedInfinity .binary64 .positive := by
    have hbiased : (e + Format.binary64.exponentBias +
        Format.binary64.mantissaBitsWithoutImplicit).toNat = (e + 1075).toNat := by
      change (e + 1023 + 52).toNat = (e + 1075).toNat
      omega
    have hrange : 2 ^ 11 ≤ (e + 1075).toNat + 1 := by
      rw [greatestExponent] at he
      omega
    unfold pack
    dsimp only
    rw [hbiased, if_pos hrange]
  rw [hpack]
  rfl

/-- The double is above zero, finite or infinite. -/
theorem nearest_pos (hn : 0 < n) :
    (∃ m e h, (nearest n).toModel.unpack = .finite .positive m e h) ∨
      (nearest n).toModel.unpack = .infinity .positive := by
  rcases Nat.lt_or_ge n exactBound with hlt | hge
  · rw [← ofNat_eq_nearest]
    cases holds_ofNat_of_lt hlt with
    | zero => cases hn
    | normal h => exact .inl ⟨_, _, _, h⟩
  · obtain ⟨m, e, h, hround, hlog, he⟩ := round_of_large hge
    rw [nearest, hround]
    rcases Int.lt_or_le greatestExponent e with hgreater | hle
    · exact .inr (unpack_pack_of_greater h hgreater)
    · have hleast : leastExponent ≤ e := Int.le_trans (by decide) he
      exact .inl ⟨m, e, h, IsNormal.unpack_pack ⟨hlog, hleast, hle⟩⟩

end

/-- Only the double of zero equals zero. -/
theorem ofNat_beq_zero (n : Nat) : (Float.ofNat n == 0) = decide (n = 0) := by
  change (Float.ofNat n).toModel.unpack.beq (Float.ofNat 0).toModel.unpack = _
  have hzero : (Float.ofNat 0).toModel.unpack = .zero .positive := by
    rfl
  rw [hzero]
  rcases Nat.eq_zero_or_pos n with rfl | hn
  · rw [hzero]
    rfl
  · rw [decide_eq_false hn.ne', ofNat_eq_nearest]
    rcases nearest_pos hn with ⟨m, e, h, hunpack⟩ | hunpack <;> rw [hunpack] <;> rfl

/-- The double of a whole number is not negative. -/
theorem ofNat_beq_neg_one (n : Nat) : (Float.ofNat n == -1) = false := by
  change (Float.ofNat n).toModel.unpack.beq (-1 : Float).toModel.unpack = _
  have hneg : ∃ m e h, (-1 : Float).toModel.unpack = .finite .negative m e h :=
    ⟨leadingBit, -52, by decide, by rfl⟩
  obtain ⟨m, e, h, hneg⟩ := hneg
  have hpositive : HasSign .positive (Float.ofNat n).toModel.unpack := positive_ofNat n
  rw [hneg]
  generalize (Float.ofNat n).toModel.unpack = u at hpositive
  cases hpositive <;> rfl

end Stencil.Number
