import Stencil.Proofs.Text.Units

/-!
# Texts that are cut inside a character

The units of a text may be cut between the halves of a pair. What is decoded then has the
replacement character in place of each half, and everything else is as before.

* `Decodes`, `decodes_iff`: the text that units are decoded to, half pairs included
* `divided_of_encode_eq_append`: the units of a text are divided between characters or in one
* `decode_halves_iff`: where a text may be cut and put together again
-/

namespace Stencil.Text

/-! ## Decoding any units -/

/-- The units are decoded to the text: whole characters as they are, and each surrogate that stands
alone as the replacement character. -/
inductive Decodes : List Nat → List Char → Prop
  | nil : Decodes [] []
  | char (c : Char) {us : List Nat} {t : List Char} :
      Decodes us t → Decodes (units c ++ us) (c :: t)
  /-- A second half, or a first one that no second half follows. -/
  | alone {u : Nat} {us : List Nat} {t : List Char} (surrogate : isHigh u = true ∨ isLow u = true)
      (unpaired : isHigh u = true → ∀ v ∈ us.head?, isLow v = false) :
      Decodes us t → Decodes (u :: us) (replacement :: t)

variable {u v : Nat} {us : List Nat} {s t : List Char} {front back : List Nat}

theorem isHigh_of_isLow (h : isLow u = true) : isHigh u = false := by
  simp only [isLow, isHigh, Bool.and_eq_true, Bool.and_eq_false_iff, decide_eq_true_eq,
    decide_eq_false_iff_not] at h ⊢
  omega

theorem decode_pair (hu : isHigh u = true) (hv : isLow v = true) (us : List Nat) :
    decode (u :: v :: us) = ofPair u v :: decode us := by
  rw [decode, hu, hv, Bool.and_self, if_pos rfl]

/-- A unit that is no first half of a pair here is decoded by itself. -/
theorem decode_single (h : isHigh u = true → ∀ v ∈ us.head?, isLow v = false) :
    decode (u :: us) =
      (if isHigh u || isLow u then replacement else Char.ofNat u) :: decode us := by
  cases us with
  | nil => rfl
  | cons v us =>
    have hpair : (isHigh u && isLow v) = false := by
      cases hu : isHigh u with
      | false => rfl
      | true => exact h hu v rfl
    rw [decode, hpair, if_neg Bool.false_ne_true]

theorem decode_alone (hu : isHigh u = true ∨ isLow u = true)
    (h : isHigh u = true → ∀ v ∈ us.head?, isLow v = false) :
    decode (u :: us) = replacement :: decode us := by
  rw [decode_single h, if_pos (Bool.or_eq_true_iff.2 hu)]

/-- A unit that is no first half of a pair here stands for itself, or for nothing. -/
theorem Decodes.single (hlt : u < 0x10000)
    (h : isHigh u = true → ∀ v ∈ us.head?, isLow v = false) (hus : Decodes us t) :
    Decodes (u :: us) ((if isHigh u || isLow u then replacement else Char.ofNat u) :: t) := by
  cases hu : isHigh u || isLow u with
  | true => exact .alone (Bool.or_eq_true_iff.1 hu) h hus
  | false =>
    obtain ⟨hhigh, hlow⟩ := Bool.or_eq_false_iff.1 hu
    have hunits : units (Char.ofNat u) = [u] := by
      rw [units, toNat_ofNat_of_not_surrogate hlt hhigh hlow, if_pos hlt]
    have hchar := Decodes.char (Char.ofNat u) hus
    rwa [hunits, List.singleton_append] at hchar

/-- Units of all kinds are decoded to a text. -/
theorem decodes_decode (h : ∀ u ∈ us, u < 0x10000) : Decodes us (decode us) := by
  induction us using decode.induct with
  | case1 => exact .nil
  | case2 u =>
    have hlast : isHigh u = true → ∀ v ∈ [].head?, isLow v = false := fun _ _ hv => by cases hv
    rw [decode_single hlast]
    exact .single (h u (List.mem_singleton_self u)) hlast .nil
  | case3 u v us hpair ih =>
    obtain ⟨hu, hv⟩ := Bool.and_eq_true_iff.1 hpair
    have hrest := Decodes.char (ofPair u v) (ih fun w hw => h w (by simp [hw]))
    rw [decode_pair hu hv]
    rwa [units_ofPair hu hv] at hrest
  | case4 u v us hpair ih =>
    have hunpaired : isHigh u = true → ∀ w ∈ (v :: us).head?, isLow w = false := by
      rintro hu w ⟨⟩
      rw [hu, Bool.true_and] at hpair
      exact Bool.eq_false_iff.2 hpair
    obtain ⟨hlt, hrest⟩ := List.forall_mem_cons.1 h
    rw [decode_single hunpaired]
    exact .single hlt hunpaired (ih hrest)

/-- Units are decoded to one text only. -/
theorem decodes_iff (h : ∀ u ∈ us, u < 0x10000) : Decodes us t ↔ decode us = t := by
  constructor
  · intro ht
    clear h
    induction ht with
    | nil => rfl
    | char c _ ih => rw [decode_units_append, ih]
    | alone surrogate unpaired _ ih => rw [decode_alone surrogate unpaired, ih]
  · rintro rfl
    exact decodes_decode h

/-- The units of a text are words of 16 bits. -/
theorem lt_of_mem_encode (h : u ∈ encode s) : u < 0x10000 := by
  obtain ⟨c, -, hu⟩ := List.mem_flatMap.1 h
  have hvalid : c.toNat < 0x110000 := by
    rcases c.valid with h | h
    · exact Nat.lt_trans h (by decide)
    · exact h.2
  unfold units at hu
  split at hu
  · obtain rfl := List.mem_singleton.1 hu
    assumption
  · simp only [List.mem_cons, List.not_mem_nil, or_false] at hu
    omega

/-! ## Halves of pairs -/

/-- After so many units of the text comes the second half of a pair. -/
def SplitsPair (s : List Char) (n : Nat) : Prop :=
  ∃ before c after, s = before ++ c :: after ∧ (units c).length = 2 ∧ n = unitLength before + 1

theorem decode_high (h : isHigh u = true) : decode [u] = [replacement] :=
  decode_alone (.inl h) fun _ _ hv => by cases hv

theorem decode_low (h : isLow u = true) (us : List Nat) :
    decode (u :: us) = replacement :: decode us :=
  decode_alone (.inr h) fun hu => by cases hu.symm.trans (isHigh_of_isLow h)

/-- A character that is divided is a pair. -/
theorem pair_of_units_eq_append {c : Char} {us vs : List Nat} (h : units c = us ++ vs)
    (hus : us ≠ []) (hvs : vs ≠ []) : ∃ high low, us = [high] ∧ vs = [low] := by
  obtain ⟨high, us, rfl⟩ := List.exists_cons_of_ne_nil hus
  obtain ⟨low, vs, rfl⟩ := List.exists_cons_of_ne_nil hvs
  have hlength : (units c).length ≤ 2 := by
    rcases units_cases c with ⟨_, hunits, -⟩ | ⟨_, _, hunits, -⟩
    · rw [hunits]
      exact Nat.le_succ 1
    · rw [hunits]
      exact Nat.le_refl 2
  rw [h, List.length_append, List.length_cons, List.length_cons] at hlength
  obtain rfl := List.length_eq_zero_iff.1 (show us.length = 0 by omega)
  obtain rfl := List.length_eq_zero_iff.1 (show vs.length = 0 by omega)
  exact ⟨high, low, rfl, rfl⟩

/-- The units of a text are divided between two characters, or between the halves of a pair. -/
theorem divided_of_encode_eq_append (h : encode s = front ++ back) :
    (∃ before after, s = before ++ after ∧ encode before = front ∧ encode after = back) ∨
      ∃ before c after high low, s = before ++ c :: after ∧ units c = [high, low] ∧
        front = encode before ++ [high] ∧ back = low :: encode after := by
  induction s generalizing front with
  | nil =>
    obtain ⟨rfl, rfl⟩ := List.append_eq_nil_iff.1 h.symm
    exact .inl ⟨[], [], rfl, rfl, rfl⟩
  | cons c s ih =>
    rw [encode_cons] at h
    rcases List.append_eq_append_iff.1 h with ⟨inner, rfl, hrest⟩ | ⟨inner, hunits, rfl⟩
    -- the character stands before the cut
    · rcases ih hrest with ⟨before, after, rfl, rfl, hafter⟩ |
        ⟨before, d, after, high, low, rfl, hd, rfl, hback⟩
      · exact .inl ⟨c :: before, after, rfl, encode_cons c before, hafter⟩
      · refine .inr ⟨c :: before, d, after, high, low, rfl, hd, ?_, hback⟩
        rw [encode_cons, List.append_assoc]
    -- the cut is at one of its ends or inside
    · by_cases hfront : front = []
      · subst hfront
        refine .inl ⟨[], c :: s, rfl, rfl, ?_⟩
        rw [encode_cons, hunits, List.nil_append]
      by_cases hinner : inner = []
      · subst hinner
        refine .inl ⟨[c], s, rfl, ?_, rfl⟩
        rw [encode_cons, hunits, List.append_nil]
        exact List.append_nil front
      obtain ⟨high, low, rfl, rfl⟩ := pair_of_units_eq_append hunits hfront hinner
      exact .inr ⟨[], c, s, high, low, rfl, hunits, rfl, rfl⟩

/-- A text is put together again from what its units before a cut and those after it are decoded to,
unless the cut is between the halves of a pair. -/
theorem decode_halves_iff (s : List Char) (n : Nat) :
    decode ((encode s).take n) ++ decode ((encode s).drop n) = s ↔ ¬ SplitsPair s n := by
  constructor
  · rintro h ⟨before, c, after, rfl, hlength, rfl⟩
    rcases units_cases c with ⟨u, hunits, -⟩ | ⟨high, low, hunits, hhigh, hlow, -⟩
    · rw [hunits] at hlength
      cases hlength
    have hencode : encode (before ++ c :: after) =
        (encode before ++ [high]) ++ (low :: encode after) := by
      rw [encode_append, encode_cons, hunits, List.append_assoc]
      rfl
    have hcut : unitLength before + 1 = (encode before ++ [high]).length := by
      rw [List.length_append]
      rfl
    rw [hencode, hcut, List.take_left, List.drop_left, decode_encode_append, decode_high hhigh,
      decode_low hlow, decode_encode] at h
    have hmore := congrArg List.length h
    simp only [List.length_append, List.length_cons, List.length_nil] at hmore
    omega
  · intro h
    rcases divided_of_encode_eq_append (List.take_append_drop n (encode s)).symm with
      ⟨before, after, rfl, hbefore, hafter⟩ |
      ⟨before, c, after, high, low, hs, hunits, hfront, hback⟩
    · rw [← hbefore, ← hafter, decode_encode, decode_encode]
    · refine absurd ⟨before, c, after, hs, by rw [hunits]; rfl, ?_⟩ h
      have hlt : n < (encode s).length := by
        refine Nat.lt_of_not_le fun hle => ?_
        rw [List.drop_eq_nil_of_le hle] at hback
        cases hback
      have hlength := congrArg List.length hfront
      rw [List.length_take, Nat.min_eq_left hlt.le, List.length_append] at hlength
      exact hlength

end Stencil.Text
