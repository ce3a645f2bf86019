import Mathlib.Data.Rat.Floor
import Stencil.Proofs.Offsets.Values
import Stencil.Proofs.Searching
import Stencil.Proofs.Text.Surrogates

/-!
# Parts of sequences

The method that takes a part of an array or a text takes the items between two indexes. Its
arguments may be anything, but what they stand for is never out of bounds. The part before an index
and the part from there on make up the whole, but for a text that is cut inside a character.

* `IsIndex`, `isIndex_iff`: the index that an argument stands for, which doubles find as long as the
  length is exact
* `IsSlice`, `isSlice_window`: the part between the indexes that two arguments stand for
* `window_before`, `window_from`: the part before an index, and the part from there on
* `Value.slice_takes_window`: the main statement
-/

namespace Stencil

/-! ## Whole parts -/

namespace Number

/-- The exact value of a finite double with the parts. -/
def valueOf (negative : Bool) (m : Nat) (e : Int) : ℚ :=
  (if negative then -1 else 1) * (m * 2 ^ e)

/-- A number without its fraction. -/
def truncated (q : ℚ) : Int :=
  if 0 ≤ q then ⌊q⌋ else ⌈q⌉

theorem scaleDown_eq_floor (m : Nat) (e : Int) : (scaleDown m e : Int) = ⌊(m : ℚ) * 2 ^ e⌋ := by
  unfold scaleDown
  split
  · rename_i he
    obtain ⟨k, rfl⟩ := Int.eq_ofNat_of_zero_le he
    have hvalue : (m : ℚ) * 2 ^ (k : Int) = ((m * Nat.pow 2 k : Nat) : ℚ) := by
      rw [zpow_natCast]
      exact_mod_cast rfl
    rw [hvalue, Int.floor_natCast, Int.toNat_natCast]
  · rename_i he
    obtain ⟨k, rfl⟩ : ∃ k : Nat, e = -k := ⟨(-e).toNat, by omega⟩
    have hvalue : (m : ℚ) * 2 ^ (-(k : Int)) = (m : ℚ) / (Nat.pow 2 k : Nat) := by
      rw [zpow_neg, zpow_natCast, ← div_eq_mul_inv]
      exact_mod_cast rfl
    rw [hvalue, Rat.floor_natCast_div_natCast, Int.neg_neg, Int.toNat_natCast]
    exact_mod_cast rfl

/-- Rounding the significand down drops the fraction, whatever the sign. -/
theorem signed_scaleDown (negative : Bool) (m : Nat) (e : Int) :
    signed negative (scaleDown m e) = truncated (valueOf negative m e) := by
  have hnonneg : (0 : ℚ) ≤ m * 2 ^ e := mul_nonneg (Nat.cast_nonneg m) (zpow_nonneg zero_le_two e)
  unfold signed truncated valueOf
  cases negative with
  | false => rw [if_neg Bool.false_ne_true, if_neg Bool.false_ne_true, one_mul, if_pos hnonneg,
      scaleDown_eq_floor]
  | true =>
    rw [if_pos rfl, if_pos rfl, neg_one_mul, scaleDown_eq_floor]
    rcases hnonneg.eq_or_lt with hzero | hpos
    · rw [← hzero, neg_zero, if_pos le_rfl, Int.floor_zero, neg_zero]
    · rw [if_neg (not_le.2 (neg_neg_of_pos hpos)), Int.ceil_neg]

end Number

/-! ## Indexes -/

/-- A whole number as an index in a sequence of `n` items: a negative one counts from the end, and
all are brought into the bounds. -/
def boundedIndex (n : Nat) (t : Int) : Nat :=
  (max 0 (min (n : Int) (if t < 0 then n + t else t))).toNat

/-- The argument stands for an index in a sequence of `n` items. -/
inductive IsIndex (n missing : Nat) (v : Value) : Nat → Prop
  | undefined (undefined : v = .undefined) : IsIndex n missing v missing
  | notANumber (defined : v ≠ .undefined) (number : Number.parts v.toNumber = .nan) :
    IsIndex n missing v 0
  | minusInfinity (defined : v ≠ .undefined)
    (number : Number.parts v.toNumber = .infinite true) : IsIndex n missing v 0
  | infinity (defined : v ≠ .undefined)
    (number : Number.parts v.toNumber = .infinite false) : IsIndex n missing v n
  | finite {negative : Bool} {m : Nat} {e : Int} (defined : v ≠ .undefined)
    (number : Number.parts v.toNumber = .finite negative m e) :
    IsIndex n missing v (boundedIndex n (Number.truncated (Number.valueOf negative m e)))

variable {n missing k : Nat} {v : Value} {x : Float}

theorem Value.isUndefined_iff : v.isUndefined = true ↔ v = .undefined := by
  cases v <;> simp [Value.isUndefined, Value.kind]

/-- The index in bounds, as it is computed from the number without its fraction. -/
theorem boundedIndex_eq (n : Nat) (t : Int) :
    (if t < 0 then ((n : Int) + t).toNat else min t.toNat n) = boundedIndex n t := by
  unfold boundedIndex
  split <;> omega

theorem isIndex_exactIndex (n missing : Nat) (v : Value) :
    IsIndex n missing v (exactIndex v n missing) := by
  by_cases hv : v = .undefined
  · rw [exactIndex, if_pos (Value.isUndefined_iff.2 hv)]
    exact .undefined hv
  rw [exactIndex, if_neg (mt Value.isUndefined_iff.1 hv)]
  cases hparts : Number.parts v.toNumber with
  | nan => exact .notANumber hv hparts
  | infinite negative =>
    cases negative with
    | true => exact .minusInfinity hv hparts
    | false => exact .infinity hv hparts
  | finite negative m e =>
    dsimp only
    rw [Number.signed_scaleDown, boundedIndex_eq]
    exact .finite hv hparts

theorem isIndex_iff_exactIndex : IsIndex n missing v k ↔ exactIndex v n missing = k := by
  constructor
  · intro h
    cases h with
    | undefined hv => rw [exactIndex, if_pos (Value.isUndefined_iff.2 hv)]
    | notANumber hv hparts => rw [exactIndex, if_neg (mt Value.isUndefined_iff.1 hv), hparts]
    | minusInfinity hv hparts =>
      rw [exactIndex, if_neg (mt Value.isUndefined_iff.1 hv), hparts]
      rfl
    | infinity hv hparts =>
      rw [exactIndex, if_neg (mt Value.isUndefined_iff.1 hv), hparts]
      rfl
    | finite hv hparts =>
      rw [exactIndex, if_neg (mt Value.isUndefined_iff.1 hv), hparts,
        ← Number.signed_scaleDown, ← boundedIndex_eq]
  · rintro rfl
    exact isIndex_exactIndex n missing v

/-- The index that an argument stands for is the one that is computed from it with doubles. -/
theorem isIndex_iff (hn : n < Number.exactBound) :
    IsIndex n missing v k ↔ relativeIndex v n missing = k := by
  rw [relativeIndex_eq hn, isIndex_iff_exactIndex]

/-! ## Parts -/

/-- The part holds the items from the index that the first argument stands for up to the one that
the second argument stands for. Missing arguments stand for the beginning and the end. -/
def IsSlice {α : Type} (items : List α) (arguments : List Value) (part : List α) : Prop :=
  ∃ first last, IsIndex items.length 0 (argument arguments 0) first ∧
    IsIndex items.length items.length (argument arguments 1) last ∧
    first ≤ items.length ∧ last ≤ items.length ∧
    ∀ p, part[p]? = if first + p < last then items[first + p]? else none

/-- A number stands for an index, whatever a missing argument stands for. -/
theorem relativeIndex_number (x : Float) (n missing missing' : Nat) :
    relativeIndex (.number x) n missing = relativeIndex (.number x) n missing' :=
  rfl

section

variable {α : Type} {items : List α} (hlength : items.length < Number.exactBound)
include hlength

theorem isSlice_window (arguments : List Value) :
    IsSlice items arguments (window items (argument arguments 0) (argument arguments 1)) := by
  have hfirst := relativeIndex_le hlength (argument arguments 0) (Nat.zero_le _)
  have hlast := relativeIndex_le hlength (argument arguments 1) (Nat.le_refl _)
  refine ⟨_, _, (isIndex_iff hlength).2 rfl, (isIndex_iff hlength).2 rfl, hfirst, hlast,
    fun p => ?_⟩
  -- a part whose end lies before its beginning has no items
  have hend (first last : Nat) : first + p < max last first ↔ first + p < last := by omega
  simp only [window, sliceBounds, List.getElem?_drop, List.getElem?_take, hend]

theorem relativeIndex_zero (missing : Nat) :
    relativeIndex (.number 0) items.length missing = 0 := by
  have hwhole : Number.whole? 0 = some ((0 : Nat) : Int) :=
    (Number.holds_ofNat_of_lt (n := 0) (by decide)).whole?
  rw [relativeIndex_of_whole? hwhole hlength, Nat.zero_min]

/-- The part before the index that a number stands for. -/
theorem window_before (h : IsIndex items.length missing (.number x) k) :
    window items (.number 0) (.number x) = items.take k := by
  have hlast := relativeIndex_number x items.length items.length missing
  rw [(isIndex_iff hlength).1 h] at hlast
  rw [window, sliceBounds, relativeIndex_zero hlength, hlast, Nat.max_zero, List.drop_zero]

/-- The part from there on. -/
theorem window_from (h : IsIndex items.length missing (.number x) k) :
    window items (.number x) .undefined = items.drop k := by
  have hfirst := relativeIndex_number x items.length 0 missing
  rw [(isIndex_iff hlength).1 h] at hfirst
  have hlast : relativeIndex .undefined items.length items.length = items.length := rfl
  have hle := relativeIndex_le hlength (.number x) (Nat.zero_le _)
  rw [hfirst] at hle
  rw [window, sliceBounds, hfirst, hlast, Nat.max_eq_left hle, List.take_length]

end

/-! ## The methods -/

namespace Value

variable (fresh ref : Ref) (items : List Value) (s : String)

theorem method?_array_slice (arguments : List Value) :
    (array ref items).method? fresh "slice" arguments =
      some (array fresh (window items (argument arguments 0) (argument arguments 1))) :=
  rfl

theorem method?_text_slice (arguments : List Value) :
    (string s).method? fresh "slice" arguments =
      some (string (String.ofList (Text.decode
        (window (Text.encode s.toList) (argument arguments 0) (argument arguments 1))))) :=
  rfl

/-- A part of the units of a text is decoded like any units. -/
theorem decodes_window (start stop : Value) :
    Text.Decodes (window (Text.encode s.toList) start stop)
      (Text.decode (window (Text.encode s.toList) start stop)) := by
  refine Text.decodes_decode fun u hu => Text.lt_of_mem_encode (s := s.toList) ?_
  exact List.mem_of_mem_take (List.mem_of_mem_drop hu)

/-- **What a part holds.** The method that takes a part of an array or a text always succeeds, as
long as the lengths are exact as doubles, and the indexes between which it takes one are in order
and in bounds. It takes the items, or the units, from the first index up to the second one,
whatever the two arguments are. For every number, the part of an array before it and the part from
there on make up the array. For a text they do so just if the cut is not between the halves of a
pair. -/
theorem slice_takes_window {items : List Value} {s : String}
    (hitems : items.length < Number.exactBound)
    (htext : Text.unitLength s.toList < Number.exactBound)
    (fresh fresh' ref : Ref) (arguments : List Value) (x : Float) :
    (∃ part, IsSlice items arguments part ∧
      Offsets.window? items (argument arguments 0) (argument arguments 1) = .ok part ∧
      (array ref items).method? fresh "slice" arguments = some (array fresh part)) ∧
    (∃ part text, IsSlice (Text.encode s.toList) arguments part ∧
      Offsets.window? (Text.encode s.toList) (argument arguments 0) (argument arguments 1) =
        .ok part ∧
      Text.Decodes part text.toList ∧
      (string s).method? fresh "slice" arguments = some (string text)) ∧
    (∃ before rest,
      (array ref items).method? fresh "slice" [number 0, number x] = some (array fresh before) ∧
      (array ref items).method? fresh' "slice" [number x] = some (array fresh' rest) ∧
      before ++ rest = items) ∧
    ∃ border before rest, IsIndex (Text.unitLength s.toList) 0 (number x) border ∧
      (string s).method? fresh "slice" [number 0, number x] = some (string before) ∧
      (string s).method? fresh' "slice" [number x] = some (string rest) ∧
      (before ++ rest = s ↔ ¬ Text.SplitsPair s.toList border) := by
  refine ⟨⟨_, isSlice_window hitems arguments, Offsets.window?_eq_ok hitems _ _,
      method?_array_slice fresh ref items arguments⟩,
    ⟨_, _, isSlice_window htext arguments, Offsets.window?_eq_ok htext _ _, ?_,
      method?_text_slice fresh s arguments⟩,
    ⟨_, _, method?_array_slice fresh ref items _, method?_array_slice fresh' ref items _, ?_⟩,
    ⟨_, _, _, (isIndex_iff htext).2 rfl, method?_text_slice fresh s _,
      method?_text_slice fresh' s _, ?_⟩⟩
  · rw [String.toList_ofList]
    exact decodes_window s _ _
  · have hborder : IsIndex items.length 0 (number x) _ := (isIndex_iff hitems).2 rfl
    change window items (number 0) (number x) ++ window items (number x) undefined = items
    rw [window_before hitems hborder, window_from hitems hborder, List.take_append_drop]
  · have hborder : IsIndex (Text.encode s.toList).length 0 (number x) _ := (isIndex_iff htext).2 rfl
    change String.ofList (Text.decode (window (Text.encode s.toList) (number 0) (number x))) ++
      String.ofList (Text.decode (window (Text.encode s.toList) (number x) undefined)) = s ↔ _
    rw [window_before htext hborder, window_from htext hborder, ← String.toList_inj,
      String.toList_append, String.toList_ofList, String.toList_ofList, Text.decode_halves_iff]

/-- An array of two items, and a text whose second character is two units, each taken apart at two:
the parts of the array make it up, those of the text do not. -/
theorem slice_takes_window_at_two :
    (∃ before rest,
      (array (.made 0) [bool true, null]).method? (.made 1) "slice" [number 0, number 2] =
        some (array (.made 1) before) ∧
      (array (.made 0) [bool true, null]).method? (.made 2) "slice" [number 2] =
        some (array (.made 2) rest) ∧
      before ++ rest = [bool true, null]) ∧
    ∃ before rest,
      (string "a💩").method? (.made 1) "slice" [number 0, number 2] = some (string before) ∧
      (string "a💩").method? (.made 2) "slice" [number 2] = some (string rest) ∧
      before ++ rest ≠ "a💩" := by
  have htext : Text.unitLength "a💩".toList < Number.exactBound := by decide
  have htwo : Number.whole? 2 = some ((2 : Nat) : Int) :=
    (Number.holds_ofNat_of_lt (n := 2) (by decide)).whole?
  obtain ⟨-, -, harray, border, before, rest, hborder, hbefore, hrest, hwhole⟩ :=
    @slice_takes_window [bool true, null] "a💩" (by decide) htext (.made 1) (.made 2) (.made 0) [] 2
  refine ⟨harray, before, rest, hbefore, hrest, fun h => hwhole.1 h ?_⟩
  rw [isIndex_iff htext, relativeIndex_of_whole? htwo htext] at hborder
  subst hborder
  exact ⟨['a'], '💩', [], by decide, rfl, rfl⟩

end Value

end Stencil
