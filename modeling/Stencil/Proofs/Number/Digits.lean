import Stencil.Number.Reading

/-!
# Digits in a base

A whole number may be written in any base up to sixteen, with letters of either case for the digits
from ten and with any zeros in front.

* `IsDigitIn`, `SpellsIn`: a digit of a value, and the digits that spell a number
* `digitValue?_eq_some_iff`, `spellsIn_iff`: reading undoes spelling, and nothing else is read
* `takeWhile_append_of_head`: where the characters of a class end
-/

namespace Stencil.Number

/-- The character is a digit of the value in the base, in either case. -/
def IsDigitIn (base : Nat) (c : Char) (d : Nat) : Prop :=
  d < base ∧ (c = Nat.digitChar d ∨ c = (Nat.digitChar d).toUpper)

instance (base : Nat) (c : Char) (d : Nat) : Decidable (IsDigitIn base c d) :=
  inferInstanceAs (Decidable (_ ∧ _))

/-- One or more digits in the base spell the number. -/
inductive SpellsIn (base : Nat) : List Char → Nat → Prop
  | digit {c : Char} {d : Nat} : IsDigitIn base c d → SpellsIn base [c] d
  | snoc {digits : List Char} {c : Char} {n d : Nat} :
      SpellsIn base digits n → IsDigitIn base c d →
      SpellsIn base (digits ++ [c]) (base * n + d)

/-- What a list of digits in a base makes up, the most significant one first. -/
def valueIn (base : Nat) (values : List Nat) : Nat :=
  values.foldl (fun n d => base * n + d) 0

/-- The first characters of a class, up to one that is not of it, and what follows them. -/
theorem takeWhile_append_of_head {p : Char → Bool} {s rest : List Char}
    (hs : ∀ c ∈ s, p c = true) (hrest : ∀ c ∈ rest.head?, p c = false) :
    (s ++ rest).takeWhile p = s ∧ (s ++ rest).dropWhile p = rest := by
  rw [List.takeWhile_append_of_pos hs, List.dropWhile_append_of_pos hs]
  cases rest with
  | nil => exact ⟨List.append_nil s, rfl⟩
  | cons c rest =>
    have hc : ¬ p c = true := by simp [hrest c rfl]
    rw [List.takeWhile_cons_of_neg hc, List.dropWhile_cons_of_neg hc, List.append_nil]
    exact ⟨rfl, rfl⟩

section

variable {base : Nat} {c : Char} {d n : Nat} {digits : List Char} {values : List Nat}

/-! ## Single digits -/

theorem isDigit_eq (c : Char) : isDigit c = c.isDigit :=
  rfl

theorem letterValue?_digitChar (hd : d < 16) :
    letterValue? (Nat.digitChar d) = some d ∧ letterValue? (Nat.digitChar d).toUpper = some d := by
  revert d
  decide

/-- Only ASCII characters are digits. -/
theorem toNat_lt_of_letterValue? (h : letterValue? c = some d) : c.toNat < 128 := by
  refine Nat.lt_of_not_le fun hle => ?_
  have hgt (c' : Char) (hc' : c'.toNat < 128) : ¬ c ≤ c' := by
    rw [Char.le_def, UInt32.le_iff_toNat_le]
    have : c'.val.toNat < 128 := hc'
    have : 128 ≤ c.val.toNat := hle
    omega
  simp [letterValue?, isDigit, hgt] at h

/-- A digit has its value, and nothing else has it. -/
theorem digitValue?_eq_some_iff (hbase : base ≤ 16) :
    digitValue? base c = some d ↔ IsDigitIn base c d := by
  have hall : ∀ n < 128, (letterValue? (Char.ofNat n)).all (fun d => decide (d < 16 →
      Char.ofNat n = Nat.digitChar d ∨ Char.ofNat n = (Nat.digitChar d).toUpper)) = true := by
    decide +kernel
  rw [digitValue?, Option.filter_eq_some_iff, decide_eq_true_eq]
  constructor
  · rintro ⟨hvalue, hd⟩
    have hc := hall c.toNat (toNat_lt_of_letterValue? hvalue)
    rw [Char.ofNat_toNat, hvalue] at hc
    exact ⟨hd, of_decide_eq_true hc (Nat.lt_of_lt_of_le hd hbase)⟩
  · rintro ⟨hd, rfl | rfl⟩
    · exact ⟨(letterValue?_digitChar (Nat.lt_of_lt_of_le hd hbase)).1, hd⟩
    · exact ⟨(letterValue?_digitChar (Nat.lt_of_lt_of_le hd hbase)).2, hd⟩

theorem ne_of_isDigitIn (hbase : base ≤ 16) (h : IsDigitIn base c d) {other : Char}
    (hother : letterValue? other = none) : c ≠ other := by
  rintro rfl
  have hvalue := (digitValue?_eq_some_iff hbase).2 h
  rw [digitValue?, hother] at hvalue
  cases hvalue

/-! ## Numbers -/

theorem valueIn_append (base : Nat) (values : List Nat) (d : Nat) :
    valueIn base (values ++ [d]) = base * valueIn base values + d := by
  rw [valueIn, List.foldl_append]
  rfl

theorem wholeNumber?_eq_some_iff :
    wholeNumber? base digits = some n ↔
      digits ≠ [] ∧ ∃ values, digits.mapM (digitValue? base) = some values ∧
        valueIn base values = n := by
  unfold wholeNumber?
  split
  · rename_i hempty
    simp [List.isEmpty_iff.1 hempty]
  · rename_i hne
    rw [List.isEmpty_iff] at hne
    simp [valueIn, Option.map_eq_some_iff, hne]

theorem lt_of_mem_values (h : digits.mapM (digitValue? base) = some values) :
    ∀ d ∈ values, d < base := by
  induction digits generalizing values with
  | nil =>
    cases h
    exact fun d hd => absurd hd List.not_mem_nil
  | cons c digits ih =>
    rw [List.mapM_cons] at h
    obtain ⟨d, hd, h⟩ := Option.bind_eq_some_iff.1 h
    obtain ⟨rest, hrest, h⟩ := Option.bind_eq_some_iff.1 h
    cases h
    have hlt : d < base := of_decide_eq_true (Option.filter_eq_some_iff.1 hd).2
    exact List.forall_mem_cons.2 ⟨hlt, ih hrest⟩

theorem SpellsIn.ne_nil (h : SpellsIn base digits n) : digits ≠ [] := by
  cases h <;> simp

theorem SpellsIn.isDigitIn (h : SpellsIn base digits n) :
    ∀ c ∈ digits, ∃ d, IsDigitIn base c d := by
  induction h with
  | @digit c d hc =>
    intro c' hmem
    rw [List.mem_singleton.1 hmem]
    exact ⟨d, hc⟩
  | @snoc digits c n d _ hc ih =>
    intro c' hmem
    rcases List.mem_append.1 hmem with hmem | hmem
    · exact ih c' hmem
    · rw [List.mem_singleton.1 hmem]
      exact ⟨d, hc⟩

/-- The values of the digits make up the number. -/
theorem SpellsIn.exists_values (hbase : base ≤ 16) (h : SpellsIn base digits n) :
    ∃ values, digits.mapM (digitValue? base) = some values ∧ valueIn base values = n := by
  induction h with
  | @digit c d hc =>
    refine ⟨[d], ?_, by simp [valueIn]⟩
    simp [(digitValue?_eq_some_iff hbase).2 hc]
  | @snoc digits c n d _ hc ih =>
    obtain ⟨values, hvalues, rfl⟩ := ih
    refine ⟨values ++ [d], ?_, valueIn_append ..⟩
    simp [hvalues, (digitValue?_eq_some_iff hbase).2 hc]

/-- Digits with values spell the number that the values make up. The last digit was added last. -/
theorem spellsIn_of_values (hbase : base ≤ 16) {reversed : List Char} (hne : reversed ≠ [])
    (h : reversed.reverse.mapM (digitValue? base) = some values) :
    SpellsIn base reversed.reverse (valueIn base values) := by
  induction reversed generalizing values with
  | nil => exact absurd rfl hne
  | cons c reversed ih =>
    rw [List.reverse_cons, List.mapM_append] at h
    obtain ⟨before, hbefore, h⟩ := Option.bind_eq_some_iff.1 h
    obtain ⟨last, hlast, h⟩ := Option.bind_eq_some_iff.1 h
    cases h
    rw [List.mapM_cons] at hlast
    obtain ⟨d, hd, hlast⟩ := Option.bind_eq_some_iff.1 hlast
    cases hlast
    have hdigit := (digitValue?_eq_some_iff hbase).1 hd
    rw [List.reverse_cons, List.reverse_nil, valueIn_append]
    by_cases hreversed : reversed = []
    · subst hreversed
      cases hbefore
      simpa [valueIn] using SpellsIn.digit hdigit
    · exact (ih hreversed hbefore).snoc hdigit

/-- Digits spell the number that is read from them, and nothing else. -/
theorem spellsIn_iff (hbase : base ≤ 16) :
    SpellsIn base digits n ↔ wholeNumber? base digits = some n := by
  rw [wholeNumber?_eq_some_iff]
  constructor
  · exact fun h => ⟨h.ne_nil, h.exists_values hbase⟩
  · rintro ⟨hne, values, hvalues, rfl⟩
    have hspells := spellsIn_of_values hbase (List.reverse_ne_nil_iff.2 hne)
      (by rwa [List.reverse_reverse])
    rwa [List.reverse_reverse] at hspells

end

end Stencil.Number
