import Stencil.Proofs.Number.Casts
import Stencil.Value.Method

/-!
# Indexes

The index that an argument stands for is found with doubles: it loses its fraction, the length is
added to a negative one, and it is brought into the bounds and turned into a word. For lengths that
all have doubles of their own, this gives the index that whole numbers give.

* `exactIndex`: the index that an argument stands for, found with whole numbers
* `relativeIndex_eq`: for lengths below `2 ^ 53` it is the index that is found with doubles
* `relativeIndex_le`, `sliceBounds_le`: indexes are in bounds and in order
* `lt_sliceBounds`: a length for which they are not
-/

namespace Stencil

/-- The index that an argument stands for, found with whole numbers. -/
def exactIndex (v : Value) (length missing : Nat) : Nat :=
  if v.isUndefined then missing
  else
    match Number.parts v.toNumber with
    | .nan => 0
    | .infinite negative => if negative then 0 else length
    | .finite negative m e =>
      let n := Number.signed negative (Number.scaleDown m e)
      if n < 0 then ((length : Int) + n).toNat else min n.toNat length

/-- **Indexes are exact.** For a length that has a double of its own, doubles give the index that
whole numbers give. -/
theorem relativeIndex_eq {length : Nat} (hlength : length < Number.exactBound) (v : Value)
    (missing : Nat) : relativeIndex v length missing = exactIndex v length missing := by
  unfold relativeIndex exactIndex
  split
  · rfl
  dsimp only
  cases hparts : Number.parts v.toNumber with
  | nan =>
    rw [if_pos (Number.isNaN_iff.2 hparts),
      Number.toIndex_of_holds hlength Number.holds_zero, Nat.zero_min]
  | infinite negative =>
    have hnumber : ¬ v.toNumber.isNaN = true := by
      rw [Number.isNaN_iff, hparts]
      rintro ⟨⟩
    have htrunc : Number.trunc v.toNumber = v.toNumber := by rw [Number.trunc, hparts]
    rw [if_neg hnumber, htrunc]
    exact Number.toIndex_of_infinite hlength hparts
  | finite negative m e =>
    have hnumber : ¬ v.toNumber.isNaN = true := by
      rw [Number.isNaN_iff, hparts]
      rintro ⟨⟩
    obtain ⟨x, htrunc, hx⟩ := Number.holds_trunc hparts
    rw [if_neg hnumber, htrunc]
    dsimp only
    cases negative with
    | false =>
      have hnonneg : ¬ Number.signed false (Number.scaleDown m e) < 0 :=
        Int.not_lt.2 (Int.natCast_nonneg _)
      rw [if_neg hnonneg]
      exact Number.toIndex_of_holds hlength hx
    | true =>
      rcases Nat.eq_zero_or_pos (Number.scaleDown m e) with hzero | hpos
      · rw [hzero] at hx ⊢
        exact (Number.toIndex_neg_zero length hx).trans (Nat.zero_min length).symm
      · have hneg : Number.signed true (Number.scaleDown m e) < 0 := by
          change -(Number.scaleDown m e : Int) < 0
          omega
        rw [if_pos hneg]
        refine (Number.toIndex_neg hlength hx hpos).trans ?_
        change _ = ((length : Int) + -(Number.scaleDown m e : Int)).toNat
        omega

/-! ## Indexes in bounds -/

/-- An argument stands for an index in bounds. -/
theorem relativeIndex_le {length missing : Nat} (hlength : length < Number.exactBound) (v : Value)
    (h : missing ≤ length) : relativeIndex v length missing ≤ length := by
  rw [relativeIndex_eq hlength, exactIndex]
  split
  · exact h
  cases Number.parts v.toNumber with
  | nan => exact Nat.zero_le length
  | infinite negative =>
    cases negative with
    | true => exact Nat.zero_le length
    | false => exact Nat.le_refl length
  | finite negative m e =>
    dsimp only
    split
    · omega
    · exact Nat.min_le_right _ _

/-- The indexes of a part are in order and in bounds. -/
theorem sliceBounds_le {length : Nat} (hlength : length < Number.exactBound) (start stop : Value) :
    (sliceBounds length start stop).1 ≤ (sliceBounds length start stop).2 ∧
      (sliceBounds length start stop).2 ≤ length :=
  ⟨Nat.le_max_right _ _,
    Nat.max_le.2 ⟨relativeIndex_le hlength stop (Nat.le_refl length),
      relativeIndex_le hlength start (Nat.zero_le length)⟩⟩

/-- The bound on the length is needed: three above it the length is rounded up to a double, and the
part up to infinity ends after the last item. -/
theorem lt_sliceBounds :
    Number.exactBound + 3 <
      (sliceBounds (Number.exactBound + 3) .undefined (.number Number.infinity)).2 := by
  decide +kernel

end Stencil
