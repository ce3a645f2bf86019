import Mathlib.Data.List.Infix
import Stencil.Text.Units

/-!
# Texts and their units

The UTF-16 units of a character show by themselves where the character ends, so a text is found in
the units of another one only where it is found in the text itself.

* `units_cases`: one unit that is no surrogate, or a pair of surrogates
* `decode_encode_append`: whole characters at the beginning are decoded by themselves
* `exists_of_encode_append`: where the units of a text may be divided
* `encode_prefix_iff`, `encode_suffix_iff`, `encode_infix_iff`: texts within texts
-/

namespace Stencil.Text

section

variable {c : Char} {s t : List Char} {front back : List Nat}

theorem ofNat_of_toNat {n : Nat} (h : c.toNat = n) : Char.ofNat n = c := by
  rw [← h, Char.ofNat_toNat]

/-- A character is one unit that is no surrogate, or a pair of surrogates. -/
theorem units_cases (c : Char) :
    (∃ u, units c = [u] ∧ isHigh u = false ∧ isLow u = false ∧ Char.ofNat u = c) ∨
      ∃ high low, units c = [high, low] ∧ isHigh high = true ∧ isLow low = true ∧
        ofPair high low = c := by
  have hvalid : c.toNat < 0xD800 ∨ 0xDFFF < c.toNat ∧ c.toNat < 0x110000 := c.valid
  unfold units
  split
  · refine .inl ⟨c.toNat, rfl, ?_, ?_, Char.ofNat_toNat c⟩
    · simp only [isHigh, Bool.and_eq_false_iff, decide_eq_false_iff_not]
      omega
    · simp only [isLow, Bool.and_eq_false_iff, decide_eq_false_iff_not]
      omega
  · refine .inr ⟨_, _, rfl, ?_, ?_, ofNat_of_toNat ?_⟩
    · simp only [isHigh, Bool.and_eq_true, decide_eq_true_eq]
      omega
    · simp only [isLow, Bool.and_eq_true, decide_eq_true_eq]
      omega
    · omega

theorem toNat_ofNat_of_not_surrogate {u : Nat} (hlt : u < 0x10000) (hhigh : isHigh u = false)
    (hlow : isLow u = false) : (Char.ofNat u).toNat = u := by
  simp only [isHigh, isLow, Bool.and_eq_false_iff, decide_eq_false_iff_not] at hhigh hlow
  have hvalid : u.isValidChar := by
    unfold Nat.isValidChar
    omega
  rw [Char.ofNat, dif_pos hvalid]
  rfl

/-- A high and a low surrogate are the units of the character that they stand for. -/
theorem units_ofPair {high low : Nat} (hhigh : isHigh high = true) (hlow : isLow low = true) :
    units (ofPair high low) = [high, low] := by
  simp only [isHigh, isLow, Bool.and_eq_true, decide_eq_true_eq] at hhigh hlow
  have hvalid : (0x10000 + (high - 0xD800) * 0x400 + (low - 0xDC00)).isValidChar := by
    unfold Nat.isValidChar
    omega
  have hcode : (ofPair high low).toNat = 0x10000 + (high - 0xD800) * 0x400 + (low - 0xDC00) := by
    rw [ofPair, Char.ofNat, dif_pos hvalid]
    rfl
  rw [units, hcode, if_neg (by omega)]
  simp only [List.cons.injEq, and_true]
  omega

theorem encode_cons (c : Char) (s : List Char) : encode (c :: s) = units c ++ encode s :=
  List.flatMap_cons

/-! ## Decoding -/

theorem decode_units_append (c : Char) (rest : List Nat) :
    decode (units c ++ rest) = c :: decode rest := by
  rcases units_cases c with ⟨u, hunits, hhigh, hlow, hc⟩ | ⟨high, low, hunits, hhigh, hlow, hc⟩
  · rw [hunits]
    cases rest with
    | nil => simp [decode, hhigh, hlow, hc]
    | cons v rest => simp [decode, hhigh, hlow, hc]
  · simp [hunits, decode, hhigh, hlow, hc]

/-- Whole characters at the beginning are decoded by themselves. -/
theorem decode_encode_append (s : List Char) (rest : List Nat) :
    decode (encode s ++ rest) = s ++ decode rest := by
  induction s with
  | nil => rfl
  | cons c s ih => rw [encode_cons, List.append_assoc, decode_units_append, ih, List.cons_append]

theorem decode_encode (s : List Char) : decode (encode s) = s := by
  have h := decode_encode_append s []
  rwa [List.append_nil, decode, List.append_nil] at h

theorem encode_injective : Function.Injective encode :=
  Function.LeftInverse.injective decode_encode

/-! ## Texts within texts -/

theorem encode_prefix_iff : encode t <+: encode s ↔ t <+: s := by
  constructor
  · rintro ⟨rest, h⟩
    have hdecode := congrArg decode h
    rw [decode_encode_append, decode_encode] at hdecode
    exact ⟨decode rest, hdecode⟩
  · rintro ⟨rest, rfl⟩
    exact ⟨encode rest, (encode_append t rest).symm⟩

theorem isLow_head (c : Char) (s : List Char) (rest : List Nat) :
    ∀ u ∈ (encode (c :: s) ++ rest).head?, isLow u = false := by
  intro u hu
  rw [encode_cons] at hu
  rcases units_cases c with ⟨v, hunits, _, hlow, _⟩ | ⟨high, low, hunits, hhigh, _, _⟩
  · rw [hunits] at hu
    obtain rfl := Option.some_inj.1 hu
    exact hlow
  · rw [hunits] at hu
    obtain rfl := Option.some_inj.1 hu
    simp only [isHigh, Bool.and_eq_true, decide_eq_true_eq] at hhigh
    simp only [isLow, Bool.and_eq_false_iff, decide_eq_false_iff_not]
    omega

/-- The units of a text may be divided wherever no second half of a pair follows. -/
theorem exists_of_encode_append (h : encode s = front ++ back)
    (hback : ∀ u ∈ back.head?, isLow u = false) :
    ∃ before after, s = before ++ after ∧ encode before = front ∧ encode after = back := by
  induction s generalizing front with
  | nil =>
    obtain ⟨rfl, rfl⟩ := List.append_eq_nil_iff.1 h.symm
    exact ⟨[], [], rfl, rfl, rfl⟩
  | cons c s ih =>
    cases front with
    | nil => exact ⟨[], c :: s, rfl, rfl, h⟩
    | cons u front =>
      rcases units_cases c with ⟨v, hunits, _⟩ | ⟨high, low, hunits, _, hlow, _⟩
      · rw [encode_cons, hunits] at h
        obtain ⟨rfl, hrest⟩ := List.cons.inj h
        obtain ⟨before, after, rfl, rfl, hafter⟩ := ih hrest
        exact ⟨c :: before, after, rfl, by rw [encode_cons, hunits]; rfl, hafter⟩
      · rw [encode_cons, hunits] at h
        obtain ⟨rfl, hrest⟩ := List.cons.inj h
        cases front with
        | nil =>
          -- the cut would be between the halves of the pair
          subst hrest
          rw [hback low rfl] at hlow
          cases hlow
        | cons u front =>
          obtain ⟨rfl, hlast⟩ := List.cons.inj hrest
          obtain ⟨before, after, rfl, rfl, hafter⟩ := ih hlast
          exact ⟨c :: before, after, rfl, by rw [encode_cons, hunits]; rfl, hafter⟩

theorem encode_suffix_iff : encode t <:+ encode s ↔ t <:+ s := by
  constructor
  · rintro ⟨front, h⟩
    cases t with
    | nil => exact List.nil_suffix
    | cons c t =>
      have hhead := isLow_head c t []
      rw [List.append_nil] at hhead
      obtain ⟨before, after, rfl, _, hafter⟩ := exists_of_encode_append h.symm hhead
      rw [encode_injective hafter]
      exact List.suffix_append before (c :: t)
  · rintro ⟨rest, rfl⟩
    exact ⟨encode rest, (encode_append rest t).symm⟩

/-- The units of a text that is not empty occur only between whole characters. -/
theorem exists_of_encode_infix (ht : t ≠ []) (h : encode s = front ++ encode t ++ back) :
    ∃ before after, s = before ++ t ++ after ∧ encode before = front ∧ encode after = back := by
  obtain ⟨c, t', rfl⟩ := List.exists_cons_of_ne_nil ht
  rw [List.append_assoc] at h
  obtain ⟨before, rest, rfl, rfl, hrest⟩ := exists_of_encode_append h (isLow_head c t' back)
  obtain ⟨after, rfl⟩ := encode_prefix_iff.1 ⟨back, hrest.symm⟩
  rw [encode_append, List.append_cancel_left_eq] at hrest
  exact ⟨before, after, (List.append_assoc ..).symm, rfl, hrest⟩

theorem encode_infix_iff : encode t <:+: encode s ↔ t <:+: s := by
  constructor
  · rintro ⟨front, back, h⟩
    by_cases ht : t = []
    · rw [ht]
      exact List.nil_infix
    · obtain ⟨before, after, rfl, _⟩ := exists_of_encode_infix ht h.symm
      exact ⟨before, after, rfl⟩
  · rintro ⟨before, after, rfl⟩
    exact ⟨encode before, encode after, by rw [encode_append, encode_append]⟩

end

end Stencil.Text
