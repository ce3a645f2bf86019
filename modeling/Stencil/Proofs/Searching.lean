import Mathlib.Order.Bounds.Basic
import Stencil.Proofs.Indexing
import Stencil.Proofs.Number.Rounded
import Stencil.Proofs.Text.Units

/-!
# Searching texts

One method looks for a text in the characters of another one, one in their UTF-16 units, and a third
one takes the units between two positions. They agree, since a text is found in the units only where
it is found in the characters.

* `indexIn?_eq_none_iff`, `isLeast_of_indexIn?`: the first position at which a sequence occurs
* `window_of_append`: the part between two positions
* `Value.exists_of_isLeast`: the first occurrence of a text is between whole characters
* `Value.search_agrees`: the main statement
-/

namespace Stencil

open Text (encode decode unitLength)

/-! ## Positions -/

section

variable {α : Type} [BEq α] [LawfulBEq α] {needle items : List α} {n : Nat}

theorem indexIn?_eq_none_iff : indexIn? needle items = none ↔ ¬ needle <:+: items := by
  induction items with
  | nil => cases needle <;> simp [indexIn?]
  | cons x items ih =>
    rw [indexIn?, List.infix_cons_iff, not_or, ← List.isPrefixOf_iff_prefix]
    split
    · rename_i hprefix
      exact iff_of_false nofun fun hnone => hnone.1 hprefix
    · rename_i hprefix
      rw [Option.map_eq_none_iff, ih]
      exact (and_iff_right hprefix).symm

/-- What is found is the least position at which the sequence occurs. -/
theorem isLeast_of_indexIn? (h : indexIn? needle items = some n) :
    IsLeast {k | needle <+: items.drop k} n := by
  induction items generalizing n with
  | nil =>
    rw [indexIn?] at h
    split at h
    · rename_i hempty
      obtain rfl := Option.some_inj.1 h
      exact ⟨List.isEmpty_iff.1 hempty ▸ List.nil_prefix, fun k _ => Nat.zero_le k⟩
    · cases h
  | cons x items ih =>
    rw [indexIn?] at h
    split at h
    · rename_i hprefix
      obtain rfl := Option.some_inj.1 h
      exact ⟨List.isPrefixOf_iff_prefix.1 hprefix, fun k _ => Nat.zero_le k⟩
    · rename_i hprefix
      obtain ⟨m, hm, rfl⟩ := Option.map_eq_some_iff.1 h
      obtain ⟨hoccurs, hleast⟩ := ih hm
      refine ⟨hoccurs, fun k hk => ?_⟩
      cases k with
      | zero => exact absurd (List.isPrefixOf_iff_prefix.2 hk) hprefix
      | succ k => exact Nat.succ_le_succ (hleast hk)

theorem indexIn?_isSome_iff : (indexIn? needle items).isSome = true ↔ needle <:+: items := by
  rw [Option.isSome_iff_ne_none, ne_eq, indexIn?_eq_none_iff, not_not]

/-- The sequence is at the beginning if position zero is found. -/
theorem indexIn?_eq_zero_iff : indexIn? needle items = some 0 ↔ needle <+: items := by
  cases items with
  | nil => cases needle <;> simp [indexIn?]
  | cons x items =>
    rw [indexIn?, ← List.isPrefixOf_iff_prefix]
    split
    · rename_i hprefix
      exact iff_of_true rfl hprefix
    · rename_i hprefix
      refine iff_of_false (fun hzero => ?_) hprefix
      obtain ⟨m, _, hm⟩ := Option.map_eq_some_iff.1 hzero
      cases hm

end

/-! ## Parts -/

section

variable {x y : Float} {k : Nat}

/-- A whole number stands for the index that it is. -/
theorem relativeIndex_of_whole? (h : Number.whole? x = some (k : Int)) {length : Nat}
    (hlength : length < Number.exactBound) (missing : Nat) :
    relativeIndex (.number x) length missing = min k length := by
  rw [relativeIndex_eq hlength]
  unfold Number.whole? at h
  unfold exactIndex
  split at h
  · rename_i negative m e hparts
    split at h
    · have hdefined : ¬ (Value.number x).isUndefined = true := Bool.false_ne_true
      have hnonneg : ¬ (k : Int) < 0 := by omega
      rw [if_neg hdefined, Value.toNumber, hparts]
      dsimp only
      rw [Option.some_inj.1 h, if_neg hnonneg, Int.toNat_natCast]
    · cases h
  · cases h

/-- The part between two positions. -/
theorem window_of_append {α : Type} {front middle back : List α}
    (hbound : (front ++ middle ++ back).length < Number.exactBound)
    (hx : Number.whole? x = some (front.length : Int))
    (hy : Number.whole? y = some ((front.length + middle.length : Nat) : Int)) :
    window (front ++ middle ++ back) (.number x) (.number y) = middle := by
  have hstart : front.length ≤ (front ++ middle ++ back).length := by
    simp only [List.length_append]
    omega
  have hstop : front.length + middle.length ≤ (front ++ middle ++ back).length := by
    simp only [List.length_append]
    omega
  rw [window, sliceBounds, relativeIndex_of_whole? hx hbound, relativeIndex_of_whole? hy hbound,
    Nat.min_eq_left hstart, Nat.min_eq_left hstop]
  dsimp only
  rw [Nat.max_eq_left (Nat.le_add_right _ _), ← List.length_append, List.take_left, List.drop_left]

end

/-! ## The methods of texts -/

namespace Value

section

variable (fresh : Ref) (s t : String)

theorem method?_indexOf : (string s).method? fresh "indexOf" [string t] =
    some (positionValue (indexIn? (encode t.toList) (encode s.toList))) :=
  rfl

theorem method?_includes : (string s).method? fresh "includes" [string t] =
    some (bool (indexIn? t.toList s.toList).isSome) :=
  rfl

theorem method?_startsWith : (string s).method? fresh "startsWith" [string t] =
    some (bool (t.toList.isPrefixOf s.toList)) :=
  rfl

theorem method?_endsWith : (string s).method? fresh "endsWith" [string t] =
    some (bool (t.toList.isSuffixOf s.toList)) :=
  rfl

theorem method?_slice (start stop : Value) : (string s).method? fresh "slice" [start, stop] =
    some (string (String.ofList (decode (window (encode s.toList) start stop)))) :=
  rfl

/-- The number that a position is shown as tells whether there is one, and whether it is zero. -/
theorem exists_number_of_position (position : Option Nat) :
    ∃ i, positionValue position = number i ∧ (i != -1) = position.isSome ∧
      (i == 0) = decide (position = some 0) ∧
      ((0 : Float) ≤ i → ∃ n, position = some n ∧ i = Float.ofNat n) := by
  cases position with
  | none => exact ⟨-1, rfl, by decide, by decide, fun h => absurd h (by decide)⟩
  | some n =>
    refine ⟨Float.ofNat n, rfl, ?_, ?_, fun _ => ⟨n, rfl, rfl⟩⟩
    · rw [bne, Number.ofNat_beq_neg_one]
      rfl
    · simp [Number.ofNat_beq_zero]

section

variable {s t} {n : Nat}

/-- The first occurrence of a text is between whole characters. -/
theorem exists_of_isLeast (h : IsLeast {k | encode t.toList <+: (encode s.toList).drop k} n) :
    ∃ before after, s = before ++ t ++ after ∧ unitLength before.toList = n := by
  obtain ⟨⟨back, hback⟩, hleast⟩ := h
  by_cases ht : t = ""
  · have hzero : n = 0 := by
      refine Nat.le_zero.1 (hleast ?_)
      rw [ht]
      exact List.nil_prefix
    exact ⟨"", s, by simp [ht], hzero.symm⟩
  · have hne : t.toList ≠ [] := by rwa [ne_eq, String.toList_eq_nil_iff]
    have hunits : encode s.toList = (encode s.toList).take n ++ encode t.toList ++ back := by
      rw [List.append_assoc, hback, List.take_append_drop]
    obtain ⟨before, after, hs, hbefore, _⟩ := Text.exists_of_encode_infix hne hunits
    refine ⟨String.ofList before, String.ofList after, ?_, ?_⟩
    · rw [← String.toList_inj, hs]
      simp
    · have hlt : n < (encode s.toList).length := by
        refine Nat.lt_of_not_le fun hle => ?_
        rw [List.drop_eq_nil_of_le hle] at hback
        exact hne (Text.encode_injective (List.append_eq_nil_iff.1 hback).1)
      rw [String.toList_ofList, unitLength, hbefore, List.length_take, Nat.min_eq_left hlt.le]

theorem encode_of_append {before after : String} (hs : s = before ++ t ++ after) :
    encode s.toList = encode before.toList ++ encode t.toList ++ encode after.toList := by
  rw [hs, String.toList_append, String.toList_append, Text.encode_append, Text.encode_append]

/-- The part behind a text, as long as another one that follows there, is that other one. -/
theorem slice_of_append {before after : String} {x y : Float} (hs : s = before ++ t ++ after)
    (hbound : unitLength s.toList < Number.exactBound)
    (hx : Number.whole? x = some (unitLength before.toList : Int))
    (hy : Number.whole? y =
      some ((unitLength before.toList + unitLength t.toList : Nat) : Int)) :
    (string s).method? fresh "slice" [number x, number y] = some (string t) := by
  rw [unitLength, encode_of_append hs] at hbound
  rw [method?_slice, encode_of_append hs, window_of_append hbound hx hy, Text.decode_encode,
    String.ofList_toList]

theorem add_ofNat {m : Nat} (h : n + m < Number.exactBound) :
    (ofNat n).add (ofNat m) = ofNat (n + m) :=
  congrArg number (Number.ofNat_add h)

end

/-- **The methods that search a text agree**, in whichever encoding they look. A text occurs if its
position is not minus one, and begins the other one if its position is zero; it ends the other one
if its units end the units. A position that is not negative is the least one at which the units of
the text occur. What is before it is a whole text, and the part from there on that is as long as the
text is the text, as long as all lengths have doubles of their own. -/
theorem search_agrees :
    ∃ i : Float,
      (string s).method? fresh "indexOf" [string t] = some (number i) ∧
      (string s).method? fresh "includes" [string t] = some (bool (i != -1)) ∧
      (string s).method? fresh "startsWith" [string t] = some (bool (i == 0)) ∧
      (string s).method? fresh "endsWith" [string t] =
        some (bool (decide (encode t.toList <:+ encode s.toList))) ∧
      (0 ≤ i → ∃ n, i = Float.ofNat n ∧
        IsLeast {k | encode t.toList <+: (encode s.toList).drop k} n ∧
        (∃ before after, s = before ++ t ++ after ∧
          encode before.toList = (encode s.toList).take n) ∧
        (unitLength s.toList < Number.exactBound →
          (∀ x y, Number.whole? x = some (n : Int) →
            Number.whole? y = some ((n + unitLength t.toList : Nat) : Int) →
            (string s).method? fresh "slice" [number x, number y] = some (string t)) ∧
          ∀ length, (string t).property lengthName = .ok length →
            (string s).method? fresh "slice" [number i, (number i).add length] =
              some (string t))) := by
  obtain ⟨i, hvalue, hfound, hzero, hposition⟩ :=
    exists_number_of_position (indexIn? (encode t.toList) (encode s.toList))
  refine ⟨i, ?indexOf, ?includes, ?startsWith, ?endsWith, fun hi => ?_⟩
  case indexOf => rw [method?_indexOf, hvalue]
  case includes =>
    rw [method?_includes, hfound]
    congr 2
    rw [Bool.eq_iff_iff, indexIn?_isSome_iff, indexIn?_isSome_iff, Text.encode_infix_iff]
  case startsWith =>
    rw [method?_startsWith, hzero]
    congr 2
    rw [Bool.eq_iff_iff, List.isPrefixOf_iff_prefix, decide_eq_true_iff, indexIn?_eq_zero_iff,
      Text.encode_prefix_iff]
  case endsWith =>
    rw [method?_endsWith]
    congr 2
    rw [Bool.eq_iff_iff, List.isSuffixOf_iff_suffix, decide_eq_true_iff, Text.encode_suffix_iff]
  obtain ⟨n, hn, rfl⟩ := hposition hi
  have hleast := isLeast_of_indexIn? hn
  obtain ⟨before, after, hs, hlength⟩ := exists_of_isLeast hleast
  have hunits := encode_of_append hs
  refine ⟨n, rfl, hleast, ⟨before, after, hs, ?_⟩, fun hbound =>
    ⟨fun x y hx hy => ?_, fun length hproperty => ?_⟩⟩
  · rw [hunits, ← hlength, List.append_assoc]
    exact List.take_left.symm
  · subst hlength
    exact slice_of_append fresh hs hbound hx hy
  · have hsum : n + unitLength t.toList < Number.exactBound := by
      refine Nat.lt_of_le_of_lt ?_ hbound
      rw [unitLength, unitLength, hunits, List.length_append, List.length_append, ← hlength]
      exact Nat.le_add_right _ _
    have hn := Number.holds_ofNat_of_lt (Nat.lt_of_le_of_lt (Nat.le_add_right n _) hsum)
    have hstop : (number (Float.ofNat n)).add length = ofNat (n + unitLength t.toList) := by
      obtain rfl := Except.ok.inj hproperty
      exact add_ofNat hsum
    rw [hstop]
    subst hlength
    exact slice_of_append fresh hs hbound hn.whole? (Number.holds_ofNat_of_lt hsum).whole?

end

/-- A text with a pair that is found behind another character. -/
theorem search_agrees_pair : ∃ i : Float, 0 ≤ i ∧
    (string "a😀").method? .scope "indexOf" [string "😀"] = some (number i) ∧
    (string "a😀").method? .scope "slice" [number i, (number i).add (ofNat 2)] =
      some (string "😀") := by
  obtain ⟨i, hindex, _, _, _, hslice⟩ := search_agrees .scope "a😀" "😀"
  have hfound : (string "a😀").method? .scope "indexOf" [string "😀"] = some (ofNat 1) := by
    rfl
  obtain rfl : i = Float.ofNat 1 := number.inj (Option.some_inj.1 (hindex.symm.trans hfound))
  have hpositive : (0 : Float) ≤ Float.ofNat 1 := by decide
  obtain ⟨n, _, _, _, hparts⟩ := hslice hpositive
  exact ⟨_, hpositive, hindex, (hparts (by decide)).2 (ofNat 2) rfl⟩

/-- A half of a pair is shown as the replacement character, so an earlier part may look like a text
that occurs later only. -/
theorem not_isLeast_slice :
    (string "😀\uFFFD").method? .scope "indexOf" [string "\uFFFD"] = some (ofNat 2) ∧
    ¬ IsLeast {k | (string "😀\uFFFD").method? .scope "slice"
        [ofNat k, (ofNat k).add (ofNat (unitLength "\uFFFD".toList))] =
      some (string "\uFFFD")} 2 := by
  refine ⟨by rfl, fun h => ?_⟩
  have hstop : (ofNat 0).add (ofNat 1) = ofNat (0 + 1) := add_ofNat (by decide)
  have hunits : encode "😀\uFFFD".toList = [] ++ [0xD83D] ++ [0xDE00, 0xFFFD] := by decide
  have hhalf : window (encode "😀\uFFFD".toList) (ofNat 0) (ofNat (0 + 1)) = [0xD83D] := by
    have hzero : Number.Holds (Float.ofNat 0) 0 := Number.holds_ofNat_of_lt (by decide)
    have hone : Number.Holds (Float.ofNat (0 + 1)) (0 + 1) := Number.holds_ofNat_of_lt (by decide)
    rw [hunits]
    exact window_of_append (by decide) hzero.whole? hone.whole?
  have hearlier : (string "😀\uFFFD").method? .scope "slice"
      [ofNat 0, (ofNat 0).add (ofNat (unitLength "\uFFFD".toList))] = some (string "\uFFFD") := by
    have hlength : unitLength "\uFFFD".toList = 1 := by decide
    rw [hlength, hstop, method?_slice, hhalf]
    rfl
  exact absurd (h.2 hearlier) (by decide)

end Value

end Stencil
