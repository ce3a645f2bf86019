import Mathlib.Data.List.TakeDrop
import Stencil.Proofs.Number.Digits
import Stencil.Proofs.Number.Signs
import Stencil.Value.Arith

/-!
# Which texts stand for numbers

A text is turned into a number if it is empty, an infinity, a decimal literal or a whole number in
base two, eight or sixteen. After the letter that announces such a base there may be a plus sign,
and the number must fit into an unsigned word.

* `DecimalLiteral`, `NumberText`: the grammar of numbers
* `literal?_isSome_iff`: which texts are read as decimal literals
* `isNaN_toNumber_iff`: the main statement
* `isNaN_toNumber_based`: a sign is taken after the letter, and a long number is refused
-/

namespace Stencil.Number

open Stencil.Text

/-! ## The grammar -/

/-- The signs that may stand before a number, among them none. -/
def signs : List (List Char) :=
  [[], ['+'], ['-']]

/-- The characters are decimal digits. -/
def AllDigits (s : List Char) : Prop :=
  ∀ c ∈ s, c.isDigit = true

/-- The end of a decimal literal: nothing, or a letter, an optional sign and one or more digits. -/
inductive ExponentPart : List Char → Prop
  | absent : ExponentPart []
  | present {letter : Char} {sign digits : List Char} :
      letter ∈ ['e', 'E'] → sign ∈ signs → digits ≠ [] → AllDigits digits →
      ExponentPart (letter :: (sign ++ digits))

/-- A decimal literal without a sign: digits, among which there may be a point, and an optional
exponent. -/
inductive DecimalLiteral : List Char → Prop
  | whole {digits exponent : List Char} :
      digits ≠ [] → AllDigits digits → ExponentPart exponent →
      DecimalLiteral (digits ++ exponent)
  | point {whole fraction exponent : List Char} :
      whole ≠ [] ∨ fraction ≠ [] → AllDigits whole → AllDigits fraction → ExponentPart exponent →
      DecimalLiteral (whole ++ '.' :: (fraction ++ exponent))

/-- The letters after a leading zero, and the bases that they announce. -/
def baseLetters : List (Char × Nat) :=
  [('b', 2), ('B', 2), ('o', 8), ('O', 8), ('x', 16), ('X', 16)]

/-- A text without blanks around it that stands for a number, when `Digits` says what may follow the
letter that announces a base. -/
inductive NumberText (Digits : Nat → List Char → Prop) : List Char → Prop
  | empty : NumberText Digits []
  | infinity {sign : List Char} : sign ∈ signs → NumberText Digits (sign ++ "Infinity".toList)
  | decimal {sign literal : List Char} :
      sign ∈ signs → DecimalLiteral literal → NumberText Digits (sign ++ literal)
  | based {letter : Char} {base : Nat} {digits : List Char} :
      (letter, base) ∈ baseLetters → Digits base digits →
      NumberText Digits ('0' :: letter :: digits)

/-- One or more digits in the base. -/
def DigitsIn (base : Nat) (s : List Char) : Prop :=
  ∃ n, SpellsIn base s n

/-- An optional plus sign and one or more digits in the base whose number fits into an unsigned
word. -/
def WordIn (base : Nat) (s : List Char) : Prop :=
  ∃ sign ∈ [[], ['+']], ∃ digits n, s = sign ++ digits ∧ SpellsIn base digits n ∧ n < wordBound

/-! ## Signs and digits -/

theorem exists_splitSign (s : List Char) : ∃ sign ∈ signs, s = sign ++ (splitSign s).2 := by
  unfold splitSign
  split
  · exact ⟨['-'], by decide, rfl⟩
  · exact ⟨['+'], by decide, rfl⟩
  · exact ⟨[], by decide, rfl⟩

theorem splitSign_of_ne {c : Char} {s : List Char} (hplus : c ≠ '+') (hminus : c ≠ '-') :
    splitSign (c :: s) = (false, c :: s) := by
  rw [splitSign]
  · exact fun rest heq => hminus (List.cons.inj heq).1
  · exact fun rest heq => hplus (List.cons.inj heq).1

theorem splitSign_append {sign : List Char} (hsign : sign ∈ signs) {c : Char} {s : List Char}
    (hplus : c ≠ '+') (hminus : c ≠ '-') : (splitSign (sign ++ c :: s)).2 = c :: s := by
  simp only [signs, List.mem_cons, List.not_mem_nil, or_false] at hsign
  rcases hsign with rfl | rfl | rfl
  · rw [List.nil_append, splitSign_of_ne hplus hminus]
  · rfl
  · rfl

theorem span_isDigit (s : List Char) :
    ∃ digits rest, s.span isDigit = (digits, rest) ∧ s = digits ++ rest ∧ AllDigits digits := by
  refine ⟨s.takeWhile isDigit, s.dropWhile isDigit,
    List.span_eq_takeWhile_dropWhile isDigit s, ?_, ?_⟩
  · exact List.takeWhile_append_dropWhile.symm
  · exact List.all_eq_true.1 List.all_takeWhile

theorem span_append {digits rest : List Char} (hdigits : AllDigits digits)
    (hrest : ∀ c ∈ rest.head?, c.isDigit = false) :
    (digits ++ rest).span isDigit = (digits, rest) := by
  obtain ⟨htake, hdrop⟩ := takeWhile_append_of_head (p := isDigit) hdigits hrest
  rw [List.span_eq_takeWhile_dropWhile, htake, hdrop]

theorem AllDigits.ne_sign {digits : List Char} {c : Char} (h : AllDigits (c :: digits)) :
    c ≠ '+' ∧ c ≠ '-' := by
  have hc := h c List.mem_cons_self
  constructor <;> rintro rfl <;> cases hc

/-! ## Decimal literals -/

theorem exponent?_isSome_iff {s : List Char} : (exponent? s).isSome ↔ ExponentPart s := by
  constructor
  · intro h
    cases s with
    | nil => exact .absent
    | cons letter rest =>
      rw [exponent?] at h
      split at h
      · rename_i hletter
        obtain ⟨sign, hsign, hrest⟩ := exists_splitSign rest
        dsimp only at h
        split at h
        · cases h
        · rename_i hdigits
          rw [Bool.or_eq_true, not_or, List.isEmpty_iff, Bool.not_eq_true', Bool.not_eq_false,
            List.all_eq_true] at hdigits
          rw [hrest]
          exact .present (by simpa using hletter) hsign hdigits.1 hdigits.2
      · cases h
  · intro h
    cases h with
    | absent => rfl
    | @present letter sign digits hletter hsign hne hdigits =>
      obtain ⟨c, digits, rfl⟩ := List.exists_cons_of_ne_nil hne
      have hsplit := splitSign_append hsign (s := digits) hdigits.ne_sign.1 hdigits.ne_sign.2
      have hall : (c :: digits).all isDigit = true := List.all_eq_true.2 hdigits
      rw [exponent?, if_pos (by simpa using hletter)]
      dsimp only
      rw [hsplit, hall]
      rfl

theorem ExponentPart.head {s : List Char} (h : ExponentPart s) :
    ∀ c ∈ s.head?, c = 'e' ∨ c = 'E' := by
  cases h with
  | absent => exact fun c hc => absurd hc (Option.not_mem_none c)
  | present hletter =>
    intro c hc
    cases hc
    simpa using hletter

theorem ExponentPart.head_not_digit {s : List Char} (h : ExponentPart s) :
    ∀ c ∈ s.head?, c.isDigit = false := by
  intro c hc
  rcases h.head c hc with rfl | rfl <;> rfl

theorem splitFraction_of_exponentPart {s : List Char} (h : ExponentPart s) :
    splitFraction s = ([], s) := by
  unfold splitFraction
  split
  · rcases h.head '.' rfl with heq | heq <;> cases heq
  · rfl

theorem splitFraction_point {fraction s : List Char} (hfraction : AllDigits fraction)
    (h : ExponentPart s) : splitFraction ('.' :: (fraction ++ s)) = (fraction, s) :=
  span_append hfraction h.head_not_digit

/-- What is before and after the point, and the exponent, make up the literal. -/
theorem decimalLiteral_of_parts {whole fraction rest exponent : List Char}
    (hwhole : AllDigits whole) (hsplit : splitFraction rest = (fraction, exponent))
    (hne : whole ≠ [] ∨ fraction ≠ []) (hexponent : ExponentPart exponent) :
    DecimalLiteral (whole ++ rest) := by
  unfold splitFraction at hsplit
  split at hsplit
  · rename_i after
    obtain ⟨digits, rest, hspan, rfl, hfraction⟩ := span_isDigit after
    cases hspan.symm.trans hsplit
    exact .point hne hwhole hfraction hexponent
  · cases hsplit
    exact .whole (hne.resolve_right fun h => h rfl) hwhole hexponent

/-- A literal that is taken apart as the reader does it is a literal if there are digits and an
exponent. -/
theorem literal?_isSome_iff_of_parts {s t whole rest fraction exponent : List Char}
    (hsign : (splitSign s).2 = t) (hspan : t.span isDigit = (whole, rest))
    (hsplit : splitFraction rest = (fraction, exponent)) :
    (literal? s).isSome ↔ (whole ≠ [] ∨ fraction ≠ []) ∧ ExponentPart exponent := by
  subst hsign
  unfold literal?
  simp only [hspan, hsplit]
  split
  · rename_i hempty
    simp only [Bool.and_eq_true, List.isEmpty_iff] at hempty
    simp [hempty.1, hempty.2]
  · rename_i hempty
    simp only [Bool.and_eq_true, List.isEmpty_iff] at hempty
    rw [Option.isSome_map, exponent?_isSome_iff]
    exact ⟨fun h => ⟨Decidable.not_and_iff_or_not.1 hempty, h⟩, And.right⟩

/-- The decimal literals are the texts of the grammar, with an optional sign. -/
theorem literal?_isSome_iff {s : List Char} :
    (literal? s).isSome ↔ ∃ sign ∈ signs, ∃ literal, s = sign ++ literal ∧
      DecimalLiteral literal := by
  constructor
  · intro h
    obtain ⟨sign, hsign, hs⟩ := exists_splitSign s
    obtain ⟨whole, rest, hspan, hrest, hwhole⟩ := span_isDigit (splitSign s).2
    obtain ⟨hne, hexponent⟩ := (literal?_isSome_iff_of_parts rfl hspan rfl).1 h
    refine ⟨sign, hsign, (splitSign s).2, hs, ?_⟩
    rw [hrest]
    exact decimalLiteral_of_parts hwhole rfl hne hexponent
  · rintro ⟨sign, hsign, literal, rfl, hliteral⟩
    cases hliteral with
    | @whole digits exponent hne hdigits hexponent =>
      obtain ⟨c, digits, rfl⟩ := List.exists_cons_of_ne_nil hne
      have hsplit := splitSign_append hsign (s := digits ++ exponent) hdigits.ne_sign.1
        hdigits.ne_sign.2
      exact (literal?_isSome_iff_of_parts hsplit (span_append hdigits hexponent.head_not_digit)
        (splitFraction_of_exponentPart hexponent)).2 ⟨.inl hne, hexponent⟩
    | @point whole fraction exponent hne hwhole hfraction hexponent =>
      have hsplit : (splitSign (sign ++ (whole ++ '.' :: (fraction ++ exponent)))).2 =
          whole ++ '.' :: (fraction ++ exponent) := by
        cases whole with
        | nil => exact splitSign_append hsign (by decide) (by decide)
        | cons c whole => exact splitSign_append hsign hwhole.ne_sign.1 hwhole.ne_sign.2
      have hpoint : ∀ c ∈ ('.' :: (fraction ++ exponent)).head?, c.isDigit = false := by
        intro c hc
        cases hc
        rfl
      exact (literal?_isSome_iff_of_parts hsplit (span_append hwhole hpoint)
        (splitFraction_point hfraction hexponent)).2 ⟨hne, hexponent⟩

/-! ## Texts -/

theorem mem_baseLetters_iff {letter : Char} {base : Nat} :
    (letter, base) ∈ baseLetters ↔ radix? letter = some base := by
  constructor
  · intro h
    simp only [baseLetters, List.mem_cons, Prod.mk.injEq, List.not_mem_nil, or_false] at h
    rcases h with ⟨rfl, rfl⟩ | ⟨rfl, rfl⟩ | ⟨rfl, rfl⟩ | ⟨rfl, rfl⟩ | ⟨rfl, rfl⟩ | ⟨rfl, rfl⟩
    all_goals rfl
  · intro h
    unfold radix? at h
    split at h <;> cases h <;> decide

theorem mem_of_radix? {letter : Char} {base : Nat} (h : radix? letter = some base) :
    base ∈ [2, 8, 16] := by
  unfold radix? at h
  split at h <;> cases h <;> decide

theorem base_le_of_radix? {letter : Char} {base : Nat} (h : radix? letter = some base) :
    base ≤ 16 := by
  have hall : ∀ base ∈ [2, 8, 16], base ≤ 16 := by decide
  exact hall base (mem_of_radix? h)

/-- No decimal literal starts like a number in another base. -/
theorem literal?_of_radix? {letter : Char} {base : Nat} (h : radix? letter = some base)
    (rest : List Char) : literal? ('0' :: letter :: rest) = none := by
  unfold radix? at h
  split at h
  all_goals first | rfl | cases h

/-- The numbers after the letter of a base, with their sign. -/
theorem word?_eq_some_iff {base n : Nat} (hbase : base ≤ 16) {s : List Char} :
    word? base s = some n ↔ ∃ sign ∈ [[], ['+']], ∃ digits, s = sign ++ digits ∧
      SpellsIn base digits n ∧ n < wordBound := by
  have hfilter {digits : List Char} :
      (wholeNumber? base digits).filter (· < wordBound) = some n ↔
        SpellsIn base digits n ∧ n < wordBound := by
    rw [Option.filter_eq_some_iff, decide_eq_true_eq, spellsIn_iff hbase]
  unfold word?
  constructor
  · intro h
    split at h
    · exact ⟨['+'], by decide, _, rfl, hfilter.1 h⟩
    · exact ⟨[], by decide, _, rfl, hfilter.1 h⟩
  · rintro ⟨sign, hsign, digits, rfl, hspells, hbound⟩
    simp only [List.mem_cons, List.not_mem_nil, or_false] at hsign
    rcases hsign with rfl | rfl
    · split
      · rename_i heq
        obtain ⟨d, hd⟩ := hspells.isDigitIn '+' (by rw [← List.nil_append digits, heq]; simp)
        exact absurd rfl (ne_of_isDigitIn hbase hd rfl)
      · exact hfilter.2 ⟨hspells, hbound⟩
    · exact hfilter.2 ⟨hspells, hbound⟩

theorem ofTrimmed_of_literal? {s : List Char} {d : Decimal} (h : literal? s = some d) :
    ofTrimmed s = d.toFloat := by
  have hdecimal : decimal? s = some d.toFloat := by rw [decimal?, h, Option.map_some]
  unfold ofTrimmed
  split
  · cases h
  · rename_i c rest
    cases hc : radix? c with
    | some base => cases (literal?_of_radix? hc rest).symm.trans h
    | none => simp only [hdecimal, Option.getD_some]
  · split
    · rename_i hinfinity
      rcases hinfinity with rfl | rfl <;> cases h
    split
    · rename_i hinfinity
      subst hinfinity
      cases h
    · simp only [hdecimal, Option.getD_some]

theorem ofTrimmed_of_radix? {letter : Char} {base : Nat} (h : radix? letter = some base)
    (rest : List Char) :
    ofTrimmed ('0' :: letter :: rest) = ((word? base rest).map Float.ofNat).getD nan := by
  simp only [ofTrimmed, h]

theorem isNaN_infinity {sign : List Char} (h : sign ∈ signs) :
    (ofTrimmed (sign ++ "Infinity".toList)).isNaN = false := by
  revert sign
  decide

/-- What follows the letter of a base decides about the text. -/
theorem numberText_iff_of_radix? {Digits : Nat → List Char → Prop} {letter : Char} {base : Nat}
    (h : radix? letter = some base) (rest : List Char) :
    NumberText Digits ('0' :: letter :: rest) ↔ Digits base rest := by
  refine ⟨fun htext => ?_, .based (mem_baseLetters_iff.2 h)⟩
  generalize hs : '0' :: letter :: rest = s at htext
  cases htext with
  | empty => cases hs
  | infinity hsign =>
    simp only [signs, List.mem_cons, List.not_mem_nil, or_false] at hsign
    rcases hsign with rfl | rfl | rfl <;> cases (List.cons.inj hs).1
  | decimal hsign hliteral =>
    have hsome := literal?_isSome_iff.2 ⟨_, hsign, _, rfl, hliteral⟩
    rw [← hs, literal?_of_radix? h] at hsome
    cases hsome
  | based hletter hdigits =>
    cases hs
    cases h.symm.trans (mem_baseLetters_iff.1 hletter)
    exact hdigits

theorem numberText_of_decimal? {Digits : Nat → List Char → Prop} {s : List Char}
    (h : ((decimal? s).getD nan).isNaN = false) : NumberText Digits s := by
  cases hd : literal? s with
  | none =>
    rw [decimal?, hd] at h
    cases h
  | some d =>
    obtain ⟨sign, hsign, literal, rfl, hliteral⟩ :=
      literal?_isSome_iff.1 (Option.isSome_of_eq_some hd)
    exact .decimal hsign hliteral

/-- What is turned into a number, and not into no number. -/
theorem isNaN_ofTrimmed_iff {s : List Char} :
    (ofTrimmed s).isNaN = false ↔ NumberText WordIn s := by
  constructor
  · intro h
    unfold ofTrimmed at h
    split at h
    · exact .empty
    · rename_i letter rest
      cases hradix : radix? letter with
      | none =>
        simp only [hradix] at h
        exact numberText_of_decimal? h
      | some base =>
        simp only [hradix] at h
        cases hword : word? base rest with
        | none =>
          rw [hword] at h
          cases h
        | some n =>
          obtain ⟨sign, hsign, digits, hdigits⟩ :=
            (word?_eq_some_iff (base_le_of_radix? hradix)).1 hword
          exact .based (mem_baseLetters_iff.2 hradix) ⟨sign, hsign, digits, n, hdigits⟩
    · split at h
      · rename_i hinfinity
        rcases hinfinity with rfl | rfl
        · exact @NumberText.infinity WordIn [] (by decide)
        · exact @NumberText.infinity WordIn ['+'] (by decide)
      split at h
      · rename_i hinfinity
        subst hinfinity
        exact @NumberText.infinity WordIn ['-'] (by decide)
      · exact numberText_of_decimal? h
  · intro h
    cases h with
    | empty => rfl
    | infinity hsign => exact isNaN_infinity hsign
    | decimal hsign hliteral =>
      have hsome := literal?_isSome_iff.2 ⟨_, hsign, _, rfl, hliteral⟩
      obtain ⟨d, hd⟩ := Option.isSome_iff_exists.1 hsome
      rw [ofTrimmed_of_literal? hd]
      exact isNaN_toFloat d
    | based hletter hdigits =>
      have hradix := mem_baseLetters_iff.1 hletter
      obtain ⟨sign, hsign, digits, n, hword⟩ := hdigits
      have hword := (word?_eq_some_iff (base_le_of_radix? hradix)).2 ⟨sign, hsign, digits, hword⟩
      rw [ofTrimmed_of_radix? hradix, hword]
      exact (positive_ofNat n).isNaN

end Stencil.Number

namespace Stencil.Value

open Stencil.Number

/-- **Texts as numbers.** A text is turned into a number exactly if it is one of the grammar, with
blanks around it. -/
theorem isNaN_toNumber_iff (s : String) :
    (string s).toNumber.isNaN = false ↔ NumberText WordIn (Text.trim s.toList) :=
  isNaN_ofTrimmed_iff

/-- A sign is taken after the letter of a base, and digits are refused for being too many. -/
theorem isNaN_toNumber_based :
    ((string "0x+1").toNumber.isNaN = false ∧
        ¬ NumberText DigitsIn (Text.trim "0x+1".toList)) ∧
      (string "0xFFFFFFFFFFFFFFFFF").toNumber.isNaN = true ∧
        NumberText DigitsIn (Text.trim "0xFFFFFFFFFFFFFFFFF".toList) := by
  have hplus : Text.trim "0x+1".toList = ['0', 'x', '+', '1'] := by decide
  have hlong : Text.trim "0xFFFFFFFFFFFFFFFFF".toList = '0' :: 'x' :: List.replicate 17 'F' := by
    decide
  rw [hplus, hlong, numberText_iff_of_radix? rfl, numberText_iff_of_radix? rfl]
  refine ⟨⟨by decide, ?_⟩, by decide, 0xFFFFFFFFFFFFFFFFF, (spellsIn_iff (by decide)).2 (by decide)⟩
  rintro ⟨n, hn⟩
  cases (spellsIn_iff (Nat.le_refl 16)).1 hn

end Stencil.Value
