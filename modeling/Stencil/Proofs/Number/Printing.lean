import Stencil.Proofs.Number.Whole
import Stencil.Number.Written

/-!
# Whole numbers as text

A double that holds a whole number below `2 ^ 53` is written with the digits of the number. The
interval of such a double is too narrow for another whole number, so a shorter decimal lies in it
only if the digits that are left out are zeros, and these are filled in again.

* `search?_of_hit`: the search for the shortest decimal stops at the first hit
* `Interval.Around`: an interval around a whole number that holds no other one
* `shortest_of_value`: the shortest digits of a whole number
* `write_ofNat`: its text
-/

namespace Stencil.Number

/-! ## Digits with zeros behind them -/

theorem toDigits_mul_pow {n : Nat} (hn : 0 < n) (k : Nat) :
    Nat.toDigits 10 (n * Nat.pow 10 k) = Nat.toDigits 10 n ++ List.replicate k '0' := by
  induction k with
  | zero => rw [Nat.pow_eq, Nat.pow_zero, Nat.mul_one, List.replicate_zero, List.append_nil]
  | succ k ih =>
    have hpos : 0 < n * Nat.pow 10 k := Nat.mul_pos hn (Nat.pow_pos (by decide))
    have hsucc : n * Nat.pow 10 (k + 1) = 10 * (n * Nat.pow 10 k) + 0 := by
      rw [Nat.pow_eq, Nat.pow_eq, Nat.pow_succ, Nat.add_zero, ← Nat.mul_assoc, Nat.mul_comm]
    rw [hsucc, ← Nat.toDigits_append_toDigits (by decide) hpos (by decide), ih, List.append_assoc,
      List.replicate_succ', Nat.toDigits_zero]

/-- Zeros are all that is dropped. -/
theorem dropTrailingZeros_append (digits : List Char) :
    ∃ k, dropTrailingZeros digits ++ List.replicate k '0' = digits := by
  refine ⟨(digits.reverse.takeWhile (· == '0')).length, ?_⟩
  have hzeros : digits.reverse.takeWhile (· == '0') =
      List.replicate (digits.reverse.takeWhile (· == '0')).length '0' := by
    refine List.eq_replicate_of_mem fun c hc => ?_
    simpa using List.all_eq_true.1 List.all_takeWhile c hc
  rw [dropTrailingZeros, ← List.reverse_replicate, ← hzeros, ← List.reverse_append,
    List.takeWhile_append_dropWhile, List.reverse_reverse]

/-! ## The search -/

/-- The search ends no later than at the first hit that is known. -/
theorem search?_of_hit {i : Interval} {point : Int} {tries count k n : Nat}
    (hhit : hit? i point (count + k) = some n) (hk : k < tries) :
    ∃ count' n', search? i point tries count = some (count', n') ∧ count' ≤ count + k ∧
      hit? i point count' = some n' := by
  induction tries generalizing count k with
  | zero => omega
  | succ tries ih =>
    rw [search?]
    cases hfirst : hit? i point count with
    | some n' => exact ⟨count, n', rfl, Nat.le_add_right count k, hfirst⟩
    | none =>
      cases k with
      | zero =>
        rw [Nat.add_zero, hfirst] at hhit
        cases hhit
      | succ k =>
        obtain ⟨count', n', hsearch, hle, hhit'⟩ :=
          @ih (count + 1) k (by rwa [Nat.add_assoc, Nat.add_comm 1 k]) (by omega)
        exact ⟨count', n', hsearch, by omega, hhit'⟩

/-! ## Whole numbers -/

section

variable {m n : Nat} {e : Int} {i : Interval}

/-- An interval around a whole number that is too narrow to hold another one. -/
structure Interval.Around (i : Interval) (n : Nat) : Prop where
  middle : i.middle = n * i.unit
  low : i.middle < i.low + i.unit
  high : i.high < i.middle + i.unit
  below : i.low < i.middle
  above : i.middle < i.high

theorem interval_around (hm : 0 < m) (he : e ≤ 0) (h : (m : ℚ) * 2 ^ e = n) :
    (interval m e).Around n := by
  have hneg : ¬ 2 ≤ e := by omega
  have hunit : Nat.pow 2 (2 - e).toNat = 4 * Nat.pow 2 (-e).toNat := by
    have hsum : (2 - e).toNat = 2 + (-e).toNat := by omega
    rw [hsum]
    exact Nat.pow_add 2 2 _
  have hfour : 4 ≤ Nat.pow 2 (2 - e).toNat := by
    rw [hunit]
    exact Nat.le_mul_of_pos_right 4 (Nat.two_pow_pos _)
  have hmiddle : 4 * m = n * Nat.pow 2 (2 - e).toNat := by
    rw [hunit, eq_mul_of_value he h]
    ring
  constructor <;> simp only [interval, if_neg hneg, Nat.mul_one]
  · exact hmiddle
  all_goals (try split) <;> omega

theorem Interval.shift_neg (i : Interval) (k : Nat) :
    i.shift (-k) = { i with unit := i.unit * Nat.pow 10 k } := by
  have hup : Nat.pow 10 (-(k : Int)).toNat = 1 := by
    rw [Int.toNat_of_nonpos (by omega)]
  rw [Interval.shift, hup, Int.neg_neg, Int.toNat_natCast, Nat.mul_one, Nat.mul_one, Nat.mul_one]

/-- Over a coarser unit, only a number that makes up the middle lies in the interval. -/
theorem Interval.Around.eq_of_holds (h : i.Around n) {b power : Nat}
    (hb : { i with unit := i.unit * power : Interval }.holds b = true) : b * power = n := by
  have hbounds : i.low ≤ b * power * i.unit ∧ b * power * i.unit ≤ i.high := by
    have hcomm : b * (i.unit * power) = b * power * i.unit := by ring
    unfold Interval.holds at hb
    dsimp only at hb
    rw [hcomm] at hb
    split at hb
    · exact decide_eq_true_iff.1 hb
    · obtain ⟨hlow, hhigh⟩ := decide_eq_true_iff.1 hb
      exact ⟨hlow.le, hhigh.le⟩
  have hlower : n * i.unit < (b * power + 1) * i.unit := by
    rw [Nat.succ_mul, ← h.middle]
    exact h.low.trans_le (Nat.add_le_add_right hbounds.1 _)
  have hupper : b * power * i.unit < (n + 1) * i.unit := by
    rw [Nat.succ_mul, ← h.middle]
    exact hbounds.2.trans_lt h.high
  have hle := Nat.lt_of_mul_lt_mul_right hlower
  have hge := Nat.lt_of_mul_lt_mul_right hupper
  omega

theorem Interval.Around.eq_of_nearest? (h : i.Around n) {b k : Nat}
    (hb : (i.shift (-k)).nearest? = some b) : b * Nat.pow 10 k = n := by
  rw [Interval.shift_neg] at hb
  refine h.eq_of_holds ?_
  unfold Interval.nearest? at hb
  dsimp only at hb
  split at hb
  · rename_i hbelow habove
    obtain rfl := Option.some_inj.1 hb
    split
    · exact hbelow
    · exact habove
  · rename_i hbelow _
    obtain rfl := Option.some_inj.1 hb
    exact hbelow
  · rename_i _ habove
    obtain rfl := Option.some_inj.1 hb
    exact habove
  · cases hb

theorem Interval.Around.unit_pos (h : i.Around n) : 0 < i.unit := by
  have := h.low
  have := h.below
  omega

theorem Interval.Around.nearest?_shift_zero (h : i.Around n) :
    (i.shift 0).nearest? = some n := by
  have hshift := i.shift_neg 0
  rw [Int.natCast_zero, Int.neg_zero, Nat.pow_eq, Nat.pow_zero, Nat.mul_one] at hshift
  have hbelow : i.middle / i.unit = n := by
    rw [h.middle]
    exact Nat.mul_div_cancel n h.unit_pos
  have hrest : i.middle % i.unit = 0 := by
    rw [h.middle]
    exact Nat.mul_mod_left n i.unit
  have hholds : i.holds n = true := by
    unfold Interval.holds
    rw [← h.middle]
    split
    · exact decide_eq_true ⟨h.below.le, h.above.le⟩
    · exact decide_eq_true ⟨h.below, h.above⟩
  rw [hshift, Interval.nearest?, hbelow, hrest, hholds]
  cases i.holds (n + 1) with
  | false => rfl
  | true =>
    dsimp only
    rw [Nat.mul_zero, if_pos h.unit_pos]

theorem Interval.Around.point_eq (h : i.Around n) (hn : 0 < n) :
    i.point = (Nat.toDigits 10 n).length := by
  have hle : i.unit ≤ i.middle := by
    rw [h.middle]
    exact Nat.le_mul_of_pos_left _ hn
  have hdiv : i.middle / i.unit = n := by
    rw [h.middle]
    exact Nat.mul_div_cancel n h.unit_pos
  rw [Interval.point, if_pos hle, hdiv]

/-- There are at most sixteen digits. -/
theorem length_toDigits_of_lt (h : n < exactBound) : (Nat.toDigits 10 n).length ≤ 16 :=
  (Nat.length_toDigits_le_iff (by decide) (by decide)).2 (h.trans (by decide))

/-- The search ends with the digits of the number, less some of the zeros at the end. -/
theorem Interval.Around.search?_eq (h : i.Around n) (hpos : 0 < n) (hn : n < exactBound) :
    ∃ count b k, search? i i.point enoughDigits 1 = some (count, b) ∧
      (Nat.toDigits 10 n).length = count + k ∧ b * Nat.pow 10 k = n := by
  have hlength := length_toDigits_of_lt hn
  have hdigit := Nat.length_toDigits_pos (b := 10) (n := n)
  obtain ⟨length, hlen⟩ : ∃ length, (Nat.toDigits 10 n).length = 1 + length :=
    ⟨(Nat.toDigits 10 n).length - 1, by omega⟩
  -- the number itself is a hit at all its digits, so the search stops there or before
  have hlast : hit? i i.point (1 + length) = some n := by
    rw [hit?, h.point_eq hpos, hlen, Int.sub_self]
    exact h.nearest?_shift_zero
  have henough : length < enoughDigits := by
    rw [enoughDigits]
    omega
  obtain ⟨count, b, hsearch, hcount, hhit⟩ := search?_of_hit hlast henough
  refine ⟨count, b, 1 + length - count, hsearch, by omega, h.eq_of_nearest? ?_⟩
  have hshift : (count : Int) - i.point = -((1 + length - count : Nat) : Int) := by
    rw [h.point_eq hpos, hlen]
    omega
  rw [← hhit, hit?, hshift]

/-- The shortest digits of a whole number are its digits without zeros at the end. -/
theorem shortest_of_value (hm : 0 < m) (he : e ≤ 0) (h : (m : ℚ) * 2 ^ e = n)
    (hn : n < exactBound) :
    (shortest m e).point = (Nat.toDigits 10 n).length ∧
      ∃ k, (shortest m e).digits ++ List.replicate k '0' = Nat.toDigits 10 n := by
  have haround := interval_around hm he h
  have hpos := value_pos hm h
  obtain ⟨count, b, k, hsearch, hlength, hvalue⟩ := haround.search?_eq hpos hn
  have hb : 0 < b := by
    rcases Nat.eq_zero_or_pos b with rfl | hb
    · rw [Nat.zero_mul] at hvalue
      omega
    · exact hb
  have hdigits : Nat.toDigits 10 n = Nat.toDigits 10 b ++ List.replicate k '0' := by
    rw [← hvalue, toDigits_mul_pow hb]
  obtain ⟨j, hj⟩ := dropTrailingZeros_append (Nat.toDigits 10 b)
  have hshort : shortest m e = ⟨dropTrailingZeros (Nat.toDigits 10 b),
      (interval m e).point + (((Nat.toDigits 10 b).length : Int) - count)⟩ := by
    unfold shortest
    dsimp only
    rw [hsearch, Option.getD_some]
  rw [hshort]
  refine ⟨?_, j + k, ?_⟩
  · have hlengths := congrArg List.length hdigits
    rw [List.length_append, List.length_replicate] at hlengths
    rw [haround.point_eq hpos]
    dsimp only
    omega
  · rw [← List.replicate_append_replicate, ← List.append_assoc, hj, hdigits]

end

/-! ## Texts -/

/-- A whole number is written with its digits. -/
theorem write_ofNat {n : Nat} (h : n < exactBound) :
    plain.write (Float.ofNat n) = Nat.toDigits 10 n := by
  cases holds_ofNat_of_lt h with
  | zero hzero =>
    rw [Layout.write, parts_eq, hzero, partsOf_zero]
    dsimp only
    rw [if_pos rfl, Nat.toDigits_zero, plain]
  | @normal m _ e hm hnormal hlog hvalue =>
    have he : e ≤ 0 := by
      refine Int.not_lt.1 fun he => ?_
      obtain ⟨k, hk⟩ : ∃ k, e.toNat = k + 1 := ⟨e.toNat - 1, by omega⟩
      have hlarge := hlog.bounds.1
      have hpow := Nat.mul_le_mul_left m (Nat.one_le_two_pow (n := k))
      have hn := eq_of_value_nonneg he.le hvalue
      rw [hk, Nat.pow_eq, Nat.pow_succ, ← Nat.mul_assoc] at hn
      simp only [leadingBit, exactBound] at hlarge h
      omega
    obtain ⟨hpoint, k, hdigits⟩ := shortest_of_value hm he hvalue h
    have hlength := length_toDigits_of_lt h
    have hpos := Nat.length_toDigits_pos (b := 10) (n := n)
    have hdigits' := congrArg List.length hdigits
    rw [List.length_append, List.length_replicate] at hdigits'
    have hrange : plain.firstPoint ≤ (shortest m e).point ∧
        (shortest m e).point ≤ plain.lastPoint := by
      rw [hpoint]
      simp only [plain]
      omega
    have hpositional : positional (shortest m e) = Nat.toDigits 10 n := by
      have hzeros : (shortest m e).point.toNat - (shortest m e).digits.length = k := by omega
      rw [positional, if_neg (by omega), if_pos (by omega), hzeros, hdigits]
    rw [Layout.write, parts_eq, hnormal, partsOf_finite]
    dsimp only
    rw [if_neg hm.ne', if_pos hrange, hpositional]
    rfl

end Stencil.Number
