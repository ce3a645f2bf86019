import Mathlib.Data.Rat.Cast.Order
import Mathlib.Tactic.Ring
import Stencil.Proofs.Number.Digits
import Stencil.Proofs.Number.Signs
import Stencil.Token.Numeral

/-!
# Whole numbers as doubles

A double holds a whole number if the binary digits of the number fit into a significand. The sum and
the product of two doubles that hold whole numbers are rounded once, to the double nearest to the
result. Summing up digits is exact until a sum does not fit into a significand any more.

* `round_eq_of_value`: rounding depends on the value alone
* `nearest`, `Holds`: the double nearest to a whole number, and the one that is exactly the number
* `Holds.add`, `Holds.mul`: operations on doubles that hold whole numbers
* `ofNat_eq_nearest`: a whole number is turned into the nearest double
* `accumulate_eq`: digits summed up in doubles, if no more than the last sum is rounded
-/

namespace Stencil.Number

open Float.Model (UnpackedFloat Format totalExponent)
open Float.Model.UnpackedFloat

/-! ## Rounding -/

theorem shiftRight_add (em : ExtendedMantissa) (j k : Nat) : em >>> (j + k) = em >>> j >>> k := by
  induction k with
  | zero => rfl
  | succ k ih => exact congrArg ExtendedMantissa.shiftRightOne ih

/-- Shifting zeros out leaves no residue. -/
theorem shiftLeft_shiftRight (m k : Nat) :
    (⟨m <<< k, false, false⟩ : ExtendedMantissa) >>> k = ⟨m, false, false⟩ := by
  induction k generalizing m with
  | zero => rfl
  | succ k ih =>
    have hlast : (⟨m <<< 1, false, false⟩ : ExtendedMantissa).shiftRightOne =
        ⟨m, false, false⟩ := by
      simp [ExtendedMantissa.shiftRightOne, Nat.shiftLeft_eq]
    rw [Nat.add_comm k 1, Nat.shiftLeft_add, Nat.add_comm 1 k]
    exact (congrArg ExtendedMantissa.shiftRightOne (ih (m <<< 1))).trans hlast

theorem log2_shiftLeft {m : Nat} (hm : m ≠ 0) (k : Nat) : (m <<< k).log2 = m.log2 + k := by
  have hlower := Nat.mul_le_mul_right (2 ^ k) (Nat.log2_self_le hm)
  have hupper := Nat.mul_lt_mul_of_pos_right (Nat.lt_log2_self (n := m)) (Nat.two_pow_pos k)
  rw [← Nat.pow_add] at hlower hupper
  rw [Nat.shiftLeft_eq, Nat.log2_eq_iff (by simp [hm]), Nat.add_right_comm]
  exact ⟨hlower, hupper⟩

section

variable {spec : Format} {sign : Sign} {m k n : Nat} {e : Int}

theorem totalExponent_shiftLeft (hm : m ≠ 0) : totalExponent (m <<< k) (e - k) =
    totalExponent m e := by
  simp only [totalExponent, log2_shiftLeft hm]
  omega

/-- Zeros at the end do not matter to the rounding of a number that is long enough. -/
theorem roundWithAccuracy_shiftLeft (hm : m ≠ 0)
    (hlong : e ≤ spec.targetExponent (totalExponent m e)) :
    roundWithAccuracy spec sign (m <<< k) (e - k) .exact =
      roundWithAccuracy spec sign m e .exact := by
  have hshift : shiftToTargetExponent spec (m <<< k) (e - k) .exact =
      shiftToTargetExponent spec m e .exact := by
    simp only [shiftToTargetExponent, shiftToExponent, totalExponent_shiftLeft hm]
    generalize spec.targetExponent (totalExponent m e) = target at hlong
    have hamount : (target - (e - k)).toNat = k + (target - e).toNat := by omega
    rw [hamount, shiftRight_add]
    refine Prod.ext ?_ ?_
    · exact congrArg (fun em : ExtendedMantissa => em >>> (target - e).toNat)
        (shiftLeft_shiftRight m k)
    · dsimp only
      omega
  rw [roundWithAccuracy, roundWithAccuracy, hshift]

theorem round_eq_roundWithAccuracy (hlong : e ≤ spec.targetExponent (totalExponent m e)) :
    UnpackedFloat.round spec sign m e = roundWithAccuracy spec sign m e .exact := by
  have hamount : (e - spec.targetExponent (totalExponent m e)).toNat = 0 := by omega
  simp only [UnpackedFloat.round, decreaseExponent, hamount]
  simp

theorem round_shiftLeft (hm : m ≠ 0) :
    UnpackedFloat.round spec sign (m <<< k) (e - k) = UnpackedFloat.round spec sign m e := by
  have htotal := totalExponent_shiftLeft (k := (e - spec.targetExponent (totalExponent m e)).toNat)
    (e := e) hm
  simp only [UnpackedFloat.round, decreaseExponent, totalExponent_shiftLeft hm]
  generalize htarget : spec.targetExponent (totalExponent m e) = target at htotal
  -- Both sides add zeros at the end; the left hand side has at least as many of them.
  obtain ⟨more, hmore⟩ : ∃ more, k + (e - k - target).toNat = (e - target).toNat + more :=
    ⟨k + (e - k - target).toNat - (e - target).toNat, by omega⟩
  have hne : m <<< (e - target).toNat ≠ 0 := by simp [Nat.shiftLeft_eq, hm]
  have hexponent : e - k - (e - k - target).toNat = e - (e - target).toNat - more := by omega
  rw [← Nat.shiftLeft_add, hmore, Nat.shiftLeft_add, hexponent]
  refine roundWithAccuracy_shiftLeft hne ?_
  rw [htotal, htarget]
  omega

theorem normalize_natCast {zeroSign : Sign} (hm : m ≠ 0) :
    UnpackedFloat.normalize spec m e zeroSign = UnpackedFloat.round spec .positive m e := by
  have hcompare : compare (m : Int) 0 = .gt := Int.compare_eq_gt.2 (by omega)
  rw [UnpackedFloat.normalize, hcompare, Int.toNat_natCast]

/-- Adding zeros at the end makes up for a smaller exponent. -/
theorem value_shiftLeft {low : Int} (h : low ≤ e) :
    ((m <<< (e - low).toNat : Nat) : ℚ) * 2 ^ low = m * 2 ^ e := by
  have hsum : e = ((e - low).toNat : Int) + low := by omega
  rw [Nat.shiftLeft_eq]
  push_cast
  rw [mul_assoc, ← zpow_natCast, ← zpow_add₀ two_ne_zero, ← hsum]

/-- Rounding depends on the value alone. -/
theorem round_eq_of_value (hm : m ≠ 0) (h : (m : ℚ) * 2 ^ e = n) :
    UnpackedFloat.round spec sign m e = UnpackedFloat.round spec sign n 0 := by
  obtain ⟨k, rfl | rfl⟩ := e.eq_nat_or_neg
  · have hn : n = m <<< k := by
      rw [Nat.shiftLeft_eq]
      exact_mod_cast h.symm
    rw [hn, ← @round_shiftLeft spec sign m k k hm, Int.sub_self]
  · have hn : m = n <<< k := by
      rw [zpow_neg, zpow_natCast, ← div_eq_mul_inv, div_eq_iff (pow_ne_zero k two_ne_zero)] at h
      rw [Nat.shiftLeft_eq]
      exact_mod_cast h
    have hne : n ≠ 0 := by
      rintro rfl
      simp [hn] at hm
    rw [hn, ← @round_shiftLeft spec sign n k 0 hne, Int.zero_sub]

end

/-! ## Normal doubles -/

theorem mantissaBits_eq : Format.binary64.mantissaBits = 53 :=
  rfl

/-- The greatest exponent of a finite double. -/
def greatestExponent : Int := 971

/-- A significand of full length, and an exponent in range. -/
structure IsNormal (m : Nat) (e : Int) : Prop where
  log2 : m.log2 = 52
  least : leastExponent ≤ e
  greatest : e ≤ greatestExponent

section

variable {sign : Sign} {m : Nat} {e : Int}

theorem IsNormal.pos (h : IsNormal m e) : 0 < m := by
  refine Nat.pos_of_ne_zero ?_
  rintro rfl
  cases h.log2

theorem IsNormal.targetExponent (h : IsNormal m e) :
    Format.binary64.targetExponent (totalExponent m e) = e := by
  have hleast : -1074 ≤ e := h.least
  simp only [Format.targetExponent, totalExponent, h.log2, mantissaBits_eq, Format.minExponent]
  omega

/-- A normal double is exact. -/
theorem IsNormal.round (h : IsNormal m e) :
    UnpackedFloat.round .binary64 sign m e = .finite sign m e h.pos := by
  have hshift : shiftToTargetExponent .binary64 m e .exact = (⟨m, false, false⟩, e) := by
    simp only [shiftToTargetExponent, shiftToExponent, h.targetExponent, Int.sub_self]
    exact Prod.ext rfl (Int.add_zero e)
  have hrounded : (⟨m, false, false⟩ : ExtendedMantissa).roundedMantissa = m := rfl
  rw [round_eq_roundWithAccuracy h.targetExponent.ge, roundWithAccuracy, hshift]
  dsimp only
  rw [hrounded, hshift]
  exact dif_neg h.pos.ne'

theorem toNat_leadingBit (mantissa : BitVec 52) :
    (1#1 ++ mantissa).toNat = leadingBit + mantissa.toNat := by
  rw [BitVec.toNat_append, ← Nat.shiftLeft_add_eq_or_of_lt mantissa.isLt]
  rfl

/-- The leading bit of the significand is not stored. -/
theorem unpack_packComponents {exponent : BitVec 11} (mantissa : BitVec 52)
    (hzero : exponent ≠ 0#11) (hones : exponent ≠ -1#11) :
    unpack .binary64 (packComponents .binary64 sign exponent mantissa) =
      .finite sign (1#1 ++ mantissa).toNat (exponent.toNat - 1075)
        (toNat_leadingBit mantissa ▸ Nat.add_pos_left (by decide) _) := by
  have hexponent : unpackExponent (packComponents .binary64 sign exponent mantissa) = exponent :=
    unpackExponent_packComponents
  rw [← hexponent] at hzero hones
  unfold unpack
  dsimp only
  rw [if_neg hones, if_neg hzero, UnpackedFloat.finite.injEq, unpackSign_packComponents,
    ofBitVec_toBitVec, unpackMantissa_packComponents, unpackExponent_packComponents]
  exact ⟨rfl, rfl, rfl⟩

/-- Packing a normal double loses nothing. -/
theorem IsNormal.unpack_pack (h : IsNormal m e) :
    unpack .binary64 (pack .binary64 (.finite sign m e h.pos)) = .finite sign m e h.pos := by
  obtain ⟨hlower, hupper⟩ := (Nat.log2_eq_iff h.pos.ne').1 h.log2
  have hleast : -1074 ≤ e := h.least
  have hgreatest : e ≤ 971 := h.greatest
  have hbiased : (e + Format.binary64.exponentBias +
      Format.binary64.mantissaBitsWithoutImplicit).toNat = (e + 1075).toNat := by
    change (e + 1023 + 52).toNat = (e + 1075).toNat
    omega
  have hpack : pack .binary64 (.finite sign m e h.pos) =
      packComponents .binary64 sign (BitVec.ofNat 11 (e + 1075).toNat) (BitVec.ofNat 52 m) := by
    have hrange : ¬ 2 ^ 11 ≤ (e + 1075).toNat + 1 := by omega
    have hbits : 52 + 1 = Format.binary64.mantissaBits := rfl
    unfold pack
    dsimp only
    rw [hbiased, h.log2, if_neg hrange, if_pos hbits]
  have hexponent : (BitVec.ofNat 11 (e + 1075).toNat).toNat = (e + 1075).toNat := by
    rw [BitVec.toNat_ofNat]
    omega
  have hne {other : BitVec 11} (hother : (e + 1075).toNat ≠ other.toNat) :
      BitVec.ofNat 11 (e + 1075).toNat ≠ other := by
    intro heq
    rw [← heq, hexponent] at hother
    exact hother rfl
  have hzero : (e + 1075).toNat ≠ (0#11).toNat := by
    change (e + 1075).toNat ≠ 0
    omega
  have hones : (e + 1075).toNat ≠ (-1#11).toNat := by
    change (e + 1075).toNat ≠ 2047
    omega
  rw [hpack, unpack_packComponents _ (hne hzero) (hne hones), UnpackedFloat.finite.injEq, hexponent,
    toNat_leadingBit, BitVec.toNat_ofNat, leadingBit]
  refine ⟨rfl, ?_, ?_⟩ <;> omega

end

/-! ## Whole numbers -/

/-- The double nearest to a whole number. -/
def nearest (n : Nat) : Float :=
  .ofModel (.pack (UnpackedFloat.round .binary64 .positive n 0))

/-- The double is exactly the whole number. -/
inductive Holds (x : Float) : Nat → Prop
  | zero : x.toModel.unpack = .zero .positive → Holds x 0
  | normal {m n : Nat} {e : Int} {h : 0 < m} :
      x.toModel.unpack = .finite .positive m e h → IsNormal m e → (m : ℚ) * 2 ^ e = n → Holds x n

/-- The binary digits of the number fit into a significand, but for zeros at the end. -/
def FitsSignificand (n : Nat) : Prop :=
  ∃ m k, m < exactBound ∧ n = m <<< k

section

variable {x y : Float} {p q n : Nat}

theorem nearest_zero : nearest 0 = .ofModel (.pack (.zero .positive)) :=
  rfl

theorem nearest_of_value {m : Nat} {e : Int} (h : IsNormal m e) (hvalue : (m : ℚ) * 2 ^ e = n) :
    nearest n = .ofModel (.pack (.finite .positive m e h.pos)) := by
  rw [nearest, ← round_eq_of_value h.pos.ne' hvalue, h.round]

/-- A number that fits is held by the double nearest to it. -/
theorem holds_nearest (h : FitsSignificand n) (hbound : n < wordBound) : Holds (nearest n) n := by
  obtain ⟨m, k, hm, rfl⟩ := h
  by_cases hzero : m = 0
  · subst hzero
    rw [Nat.zero_shiftLeft]
    exact .zero rfl
  have hlog : m.log2 < 53 := (Nat.log2_lt hzero).2 hm
  have hk : k < 64 := by
    have hle : 2 ^ k ≤ m <<< k := by
      rw [Nat.shiftLeft_eq]
      exact Nat.le_mul_of_pos_left _ (Nat.pos_of_ne_zero hzero)
    exact (Nat.pow_lt_pow_iff_right (by decide)).1 (Nat.lt_of_le_of_lt hle hbound)
  have hnormal : IsNormal (m <<< (52 - m.log2)) (k - (52 - m.log2 : Nat)) := by
    refine ⟨?_, ?_, ?_⟩
    · rw [log2_shiftLeft hzero]
      omega
    · rw [leastExponent]
      omega
    · rw [greatestExponent]
      omega
  have hvalue : ((m <<< (52 - m.log2) : Nat) : ℚ) * 2 ^ ((k : Int) - (52 - m.log2 : Nat)) =
      (m <<< k : Nat) := by
    rw [Nat.shiftLeft_eq, Nat.shiftLeft_eq, zpow_sub₀ two_ne_zero, zpow_natCast, zpow_natCast]
    push_cast
    rw [mul_assoc, mul_div_cancel₀ _ (pow_ne_zero _ two_ne_zero)]
  refine .normal (h := hnormal.pos) ?_ hnormal hvalue
  rw [nearest_of_value hnormal hvalue]
  exact hnormal.unpack_pack

theorem Holds.mul (hx : Holds x p) (hy : Holds y q) : x * y = nearest (p * q) := by
  change Float.ofModel (.pack (UnpackedFloat.mul .binary64 x.toModel.unpack y.toModel.unpack)) = _
  cases hx with
  | zero hx =>
    rw [hx, Nat.zero_mul, nearest_zero]
    cases hy with
    | zero hy => rw [hy]; rfl
    | normal hy => rw [hy]; rfl
  | @normal m _ e _ hx hnormal hvalue =>
    cases hy with
    | zero hy => rw [hx, hy, Nat.mul_zero, nearest_zero]; rfl
    | @normal m' _ e' _ hy hnormal' hvalue' =>
      have hne : m * m' ≠ 0 := Nat.mul_ne_zero hnormal.pos.ne' hnormal'.pos.ne'
      have hlong : e + e' ≤ Format.binary64.targetExponent (totalExponent (m * m') (e + e')) := by
        have hlower := (Nat.le_log2 hnormal.pos.ne').1 hnormal.log2.ge
        have hlog : 52 ≤ (m * m').log2 :=
          (Nat.le_log2 hne).2 (hlower.trans (Nat.le_mul_of_pos_right m hnormal'.pos))
        simp only [Format.targetExponent, totalExponent, mantissaBits_eq]
        omega
      have hproduct : ((m * m' : Nat) : ℚ) * 2 ^ (e + e') = (p * q : Nat) := by
        rw [zpow_add₀ two_ne_zero]
        push_cast
        rw [← hvalue, ← hvalue', mul_mul_mul_comm]
      rw [hx, hy, nearest, ← round_eq_of_value hne hproduct, round_eq_roundWithAccuracy hlong]
      rfl

theorem Holds.add (hx : Holds x p) (hy : Holds y q) : x + y = nearest (p + q) := by
  change Float.ofModel (.pack (UnpackedFloat.add .binary64 x.toModel.unpack y.toModel.unpack)) = _
  cases hx with
  | zero hx =>
    rw [hx, Nat.zero_add]
    cases hy with
    | zero hy => rw [hy, nearest_zero]; rfl
    | normal hy hnormal hvalue => rw [hy, nearest_of_value hnormal hvalue]; rfl
  | @normal m _ e _ hx hnormal hvalue =>
    cases hy with
    | zero hy => rw [hx, hy, Nat.add_zero, nearest_of_value hnormal hvalue]; rfl
    | @normal m' _ e' _ hy hnormal' hvalue' =>
      have hne : m <<< (e - min e e').toNat + m' <<< (e' - min e e').toNat ≠ 0 := by
        have := hnormal.pos
        simp [Nat.shiftLeft_eq, this.ne']
      have hsum : ((m <<< (e - min e e').toNat + m' <<< (e' - min e e').toNat : Nat) : ℚ) *
          2 ^ min e e' = (p + q : Nat) := by
        push_cast
        rw [add_mul, ← hvalue, ← hvalue']
        congr 1
        · exact_mod_cast value_shiftLeft (Int.min_le_left e e')
        · exact_mod_cast value_shiftLeft (Int.min_le_right e e')
      rw [hx, hy, nearest, ← round_eq_of_value hne hsum, ← normalize_natCast hne]
      rfl

end

/-! ## Conversion -/

theorem toFloat_eq_nearest (n : UInt64) : n.toFloat = nearest n.toNat := by
  by_cases hzero : n.toNat = 0
  · change Float.ofModel (.pack (UnpackedFloat.normalize .binary64 n.toNat 0 .positive)) = _
    rw [hzero]
    rfl
  · rw [nearest, ← normalize_natCast hzero]
    rfl

theorem holds_one : Holds Float.exactlyRepresentablePowersOfTen[0] 1 := by
  have hunpack : Float.exactlyRepresentablePowersOfTen[0].toModel.unpack =
      .finite .positive leadingBit (-52) (by decide) := rfl
  refine .normal hunpack ⟨by decide, by decide, by decide⟩ ?_
  rw [leadingBit, zpow_neg]
  norm_num

theorem ofScientific_zero {n : Nat} (hn : n ≠ 0) :
    UnpackedFloat.ofScientific .binary64 n 0 = UnpackedFloat.round .binary64 .positive n 0 := by
  have hlong : (-53 : Int) ≤ Format.binary64.targetExponent (totalExponent (n <<< 53) (-53)) := by
    simp only [Format.targetExponent, totalExponent, log2_shiftLeft hn, mantissaBits_eq]
    omega
  have hround : UnpackedFloat.round .binary64 .positive (n <<< 53) (-53) =
      UnpackedFloat.round .binary64 .positive n 0 := by
    rw [← round_shiftLeft (k := 53) (e := 0) hn]
    norm_num
  have hsmall : ¬ (0 : Int) < -((2 ^ 11 : Int) + n.log2) := by omega
  rw [UnpackedFloat.ofScientific, dif_neg hn, if_neg (by decide), if_neg hsmall, if_pos le_rfl,
    ← hround, round_eq_roundWithAccuracy hlong]
  change roundWithAccuracy .binary64 .positive (n <<< 53 * 1) (-53 + 0) .exact = _
  rw [Nat.mul_one, Int.add_zero]

/-- A whole number is turned into the nearest double. -/
theorem ofNat_eq_nearest (n : Nat) : Float.ofNat n = nearest n := by
  change Float.ofScientific n false 0 = nearest n
  unfold Float.ofScientific
  split
  · rename_i hsmall
    have hn : n.toUInt64.toNat = n := Nat.mod_eq_of_lt (Nat.lt_trans hsmall.1 (by decide))
    have hfits : Holds n.toUInt64.toFloat n := by
      rw [toFloat_eq_nearest, hn]
      exact holds_nearest ⟨n, 0, hsmall.1, rfl⟩ (Nat.lt_trans hsmall.1 (by decide))
    exact (hfits.mul holds_one).trans (by rw [Nat.mul_one])
  · rename_i hlarge
    have hne : n ≠ 0 := by
      rintro rfl
      exact hlarge (by decide)
    exact congrArg (fun u => Float.ofModel (.pack u)) (ofScientific_zero hne)

theorem holds_ofNat {n : Nat} (h : FitsSignificand n) (hbound : n < wordBound) :
    Holds (Float.ofNat n) n :=
  ofNat_eq_nearest n ▸ holds_nearest h hbound

theorem fitsSignificand_of_lt {n : Nat} (h : n < exactBound) : FitsSignificand n :=
  ⟨n, 0, h, rfl⟩

theorem holds_ofNat_of_lt {n : Nat} (h : n < exactBound) : Holds (Float.ofNat n) n :=
  holds_ofNat (fitsSignificand_of_lt h) (Nat.lt_trans h (by decide))

/-! ## Sums of digits -/

section

variable {base n : Nat}

theorem FitsSignificand.half (h : FitsSignificand n) : FitsSignificand (n / 2) := by
  obtain ⟨m, k, hm, rfl⟩ := h
  cases k with
  | zero => exact fitsSignificand_of_lt (Nat.lt_of_le_of_lt (Nat.div_le_self m 2) hm)
  | succ k => exact ⟨m, k, hm, by rw [Nat.shiftLeft_succ]; omega⟩

theorem FitsSignificand.double (h : FitsSignificand n) : FitsSignificand (2 * n) := by
  obtain ⟨m, k, hm, rfl⟩ := h
  exact ⟨m, k + 1, hm, (Nat.shiftLeft_succ m k).symm⟩

theorem FitsSignificand.div (hbase : base ∈ [2, 8, 16]) (h : FitsSignificand n) :
    FitsSignificand (n / base) := by
  simp only [List.mem_cons, List.not_mem_nil, or_false] at hbase
  rcases hbase with rfl | rfl | rfl
  · exact h.half
  · simpa only [Nat.div_div_eq_div_mul] using h.half.half.half
  · simpa only [Nat.div_div_eq_div_mul] using h.half.half.half.half

theorem FitsSignificand.mul (hbase : base ∈ [2, 8, 16]) (h : FitsSignificand n) :
    FitsSignificand (n * base) := by
  simp only [List.mem_cons, List.not_mem_nil, or_false] at hbase
  rcases hbase with rfl | rfl | rfl
  · simpa only [Nat.mul_comm] using h.double
  · simpa only [← Nat.mul_assoc, Nat.mul_comm n] using h.double.double.double
  · simpa only [← Nat.mul_assoc, Nat.mul_comm n] using h.double.double.double.double

/-- All sums but the last are exact. The last digit is added last. -/
theorem accumulate_reverse (hbase : base ∈ [2, 8, 16]) {reversed : List Nat}
    (hdigits : ∀ d ∈ reversed, d < base)
    (hn : valueIn base reversed.reverse = n) (hbound : n < wordBound)
    (hfits : FitsSignificand (n / base)) :
    Numeral.accumulate base reversed.reverse = Float.ofNat n := by
  have hexact : ∀ base ∈ [2, 8, 16], base < exactBound := by decide
  induction reversed generalizing n with
  | nil =>
    subst hn
    rfl
  | cons d reversed ih =>
    have hd : d < base := hdigits d List.mem_cons_self
    obtain ⟨p, hp⟩ : ∃ p, valueIn base reversed.reverse = p := ⟨_, rfl⟩
    have hn : base * p + d = n := by
      rw [← hn, ← hp, List.reverse_cons, valueIn_append]
    have hdiv : n / base = p := by
      rw [← hn, Nat.mul_add_div (Nat.lt_of_le_of_lt (Nat.zero_le d) hd), Nat.div_eq_of_lt hd,
        Nat.add_zero]
    rw [hdiv] at hfits
    have hpn : p * base ≤ n := by
      rw [← hn, Nat.mul_comm]
      exact Nat.le_add_right _ d
    have hpword : p < wordBound :=
      Nat.lt_of_le_of_lt (hdiv ▸ Nat.div_le_self n base) hbound
    have hbefore := ih (fun d hd => hdigits d (List.mem_cons_of_mem _ hd)) hp hpword
      (hfits.div hbase)
    have hx := holds_ofNat hfits hpword
    have hy := holds_ofNat_of_lt (hexact base hbase)
    have hproduct := holds_nearest (hfits.mul hbase) (Nat.lt_of_le_of_lt hpn hbound)
    have hlast := holds_ofNat_of_lt (Nat.lt_trans hd (hexact base hbase))
    rw [List.reverse_cons, Numeral.accumulate, List.foldl_append]
    -- The product is exact, and the sum is the one that is rounded.
    calc Numeral.accumulate base reversed.reverse * Float.ofNat base + Float.ofNat d
        = Float.ofNat p * Float.ofNat base + Float.ofNat d := by rw [hbefore]
      _ = nearest (p * base) + Float.ofNat d := by rw [hx.mul hy]
      _ = nearest (p * base + d) := hproduct.add hlast
      _ = Float.ofNat n := by rw [ofNat_eq_nearest, Nat.mul_comm, hn]

/-- Digits are summed up to the double nearest to their number, if the number fits into a
significand without its last digit. -/
theorem accumulate_eq (hbase : base ∈ [2, 8, 16]) {digits : List Char} {values : List Nat}
    (hvalues : digits.mapM (digitValue? base) = some values)
    (hbound : valueIn base values < wordBound)
    (hfits : FitsSignificand (valueIn base values / base)) :
    Numeral.accumulate base values = Float.ofNat (valueIn base values) := by
  have hdigits : ∀ d ∈ values.reverse, d < base :=
    fun d hd => lt_of_mem_values hvalues d (List.mem_reverse.1 hd)
  have hsum := accumulate_reverse hbase hdigits (by rw [List.reverse_reverse]) hbound hfits
  rwa [List.reverse_reverse] at hsum

end

end Stencil.Number
