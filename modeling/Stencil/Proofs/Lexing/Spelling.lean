import Stencil.Proofs.Lexing.Basic
import Stencil.Proofs.Number.Accepted
import Stencil.Proofs.Number.Nearest
import Stencil.Proofs.Unescaping

/-!
# Tokens and their spellings

Names and marks are written as they are, texts in quotes of either kind, and whole numbers in
decimal or after the announcement of another base. Between two tokens there is at least one blank.

* `Token.Writes`, `Writes`: what is written for a token, and for some tokens
* `next_of_writes`: a token is read up to the blank after it
* `tokens_of_writes`: the main statement
-/

namespace Stencil

open Stencil.Number Stencil.Text

/-! ## Spellings -/

/-- A letter of ASCII, an underscore or a dollar sign. -/
def IsNameStart (c : Char) : Prop :=
  c.isAlpha = true ∨ c = '_' ∨ c = '$'

/-- A letter or a digit of ASCII, an underscore or a dollar sign. -/
def IsNamePart (c : Char) : Prop :=
  c.isAlphanum = true ∨ c = '_' ∨ c = '$'

/-- The body of a text in quotes, with a backslash before every backslash and every such quote. -/
def quotedBody (quote : Char) (s : List Char) : List Char :=
  s.flatMap fun c => if c = '\\' ∨ c = quote then ['\\', c] else [c]

/-- What is written for the token. -/
inductive Token.Writes : Token → List Char → Prop
  | name {c : Char} {rest : List Char} :
      IsNameStart c → (∀ d ∈ rest, IsNamePart d) →
      Token.Writes (.name (String.ofList (c :: rest))) (c :: rest)
  | text {quote : Char} (s : List Char) :
      quote ∈ ['\'', '"'] →
      Token.Writes (.text (String.ofList s)) (quote :: (quotedBody quote s ++ [quote]))
  | decimal {n : Nat} {digits : List Char} :
      SpellsIn 10 digits n → n < exactBound → Token.Writes (.number (Float.ofNat n)) digits
  | based {letter : Char} {base n : Nat} {digits : List Char} :
      (letter, base) ∈ baseLetters → SpellsIn base digits n → n < exactBound →
      Token.Writes (.number (Float.ofNat n)) ('0' :: letter :: digits)
  | mark (m : Mark) : Token.Writes (.mark m) m.spelling.toList

/-- What is written for the tokens, with blanks around them. There is a blank after every token but
the last one. -/
inductive Writes : List Token → List Char → Prop
  | nil {blanks : List Char} : (∀ c ∈ blanks, isBlank c = true) → Writes [] blanks
  | cons {t : Token} {ts : List Token} {blanks word rest : List Char} :
      (∀ c ∈ blanks, isBlank c = true) → t.Writes word → (∀ c ∈ rest.head?, isBlank c = true) →
      Writes ts rest → Writes (t :: ts) (blanks ++ (word ++ rest))

namespace Lexer

/-! ## Names -/

theorem startsName_iff {c : Char} : startsName c = true ↔ IsNameStart c := by
  have halpha : c.isAlpha = (decide ('A' ≤ c ∧ c ≤ 'Z') || ('a' ≤ c && c ≤ 'z')) := rfl
  simp only [startsName, IsNameStart, halpha, Bool.or_eq_true, Bool.and_eq_true,
    decide_eq_true_eq, beq_iff_eq, or_assoc]
  exact or_left_comm

theorem continuesName_iff {c : Char} : continuesName c = true ↔ IsNamePart c := by
  have hdigit : isDigit c = c.isDigit := rfl
  rw [continuesName, Bool.or_eq_true, startsName_iff, hdigit, IsNameStart, IsNamePart,
    Char.isAlphanum, Bool.or_eq_true]
  grind

/-- No mark starts like a name. -/
theorem not_startsName_of_mark (m : Mark) :
    ∃ c rest, m.spelling.toList = c :: rest ∧ startsName c = false := by
  cases m <;> exact ⟨_, _, rfl, rfl⟩

theorem read?_of_startsName {c : Char} (h : startsName c = true) (s : List Char) :
    Mark.read? (c :: s) = none := by
  rw [Mark.read?, List.findSome?_eq_none_iff]
  intro m _
  obtain ⟨d, rest, hspelling, hd⟩ := not_startsName_of_mark m
  have hne : d ≠ c := by
    rintro rfl
    cases h.symm.trans hd
  rw [hspelling, after?, if_neg hne, Option.map_none]

theorem not_continuesName_of_isBlank {c : Char} (h : isBlank c = true) :
    continuesName c = false := by
  have hvalue := Numeral.letterValue?_of_isBlank h
  have hunderscore : c ≠ '_' := ne_of_isBlank h rfl
  have hdollar : c ≠ '$' := ne_of_isBlank h rfl
  grind [letterValue?, continuesName, startsName]

theorem isNamePart_of_isNameStart {c : Char} (h : IsNameStart c) : IsNamePart c :=
  continuesName_iff.1 (by rw [continuesName, startsName_iff.2 h, Bool.true_or])

theorem not_isBlank_of_isNamePart {c : Char} (h : IsNamePart c) : isBlank c = false := by
  refine Bool.eq_false_iff.2 fun hblank => ?_
  cases (continuesName_iff.2 h).symm.trans (not_continuesName_of_isBlank hblank)

theorem not_isDigit_of_startsName {c : Char} (h : startsName c = true) : isDigit c = false := by
  refine Bool.eq_false_iff.2 fun hdigit => ?_
  simp only [startsName, isDigit, Bool.or_eq_true, Bool.and_eq_true, decide_eq_true_eq,
    beq_iff_eq, Char.le_def, UInt32.le_iff_toNat_le] at h hdigit
  have hnine : '9'.val.toNat = 57 := rfl
  have hlower : 'a'.val.toNat = 97 := rfl
  have hupper : 'A'.val.toNat = 65 := rfl
  rcases h with ((h | h) | rfl) | rfl
  · omega
  · omega
  · exact absurd hdigit.2 (by decide)
  · exact absurd hdigit.1 (by decide)

/-- A name is read up to the first character that it does not go on with. -/
theorem next_of_name {c : Char} {s rest : List Char} (hc : IsNameStart c)
    (hs : ∀ d ∈ s, IsNamePart d) (hrest : ∀ d ∈ rest.head?, continuesName d = false) :
    next (c :: (s ++ rest)) = .ok (.name (String.ofList (c :: s)), rest) := by
  have hstart : startsName c = true := startsName_iff.2 hc
  have hne (d : Char) (hd : startsName d = false) : c ≠ d := by
    rintro rfl
    cases hstart.symm.trans hd
  have hcontinues : ∀ d ∈ c :: s, continuesName d = true :=
    List.forall_mem_cons.2 ⟨continuesName_iff.2 (isNamePart_of_isNameStart hc),
      fun d hd => continuesName_iff.2 (hs d hd)⟩
  have hnumeral : startsNumeral (c :: (s ++ rest)) = false :=
    (startsNumeral_of_ne (hne '.' rfl) _).trans (not_isDigit_of_startsName hstart)
  obtain ⟨htake, hdrop⟩ := takeWhile_append_of_head hcontinues hrest
  rw [List.cons_append] at htake hdrop
  rw [next_of_ne hnumeral (hne '\'' rfl) (hne '"' rfl), read?_of_startsName hstart]
  simp only [name, hstart, if_true, htake, hdrop]

/-! ## Texts in quotes -/

theorem unescape_quotedBody {quote : Char} (hquote : quote ∈ ['\'', '"']) (s : List Char) :
    Escapes.unescape (quotedBody quote s) = .ok s := by
  induction s with
  | nil => exact Escapes.unescape_of_not_mem List.not_mem_nil
  | cons c s ih =>
    rw [quotedBody, List.flatMap_cons]
    split
    · rename_i hc
      have hitself : Escapes.StandsForItself c := by
        simp only [List.mem_cons, List.not_mem_nil, or_false] at hquote
        rcases hc with rfl | rfl
        · decide
        · rcases hquote with rfl | rfl <;> decide
      exact Escapes.unescape_of_step (Escapes.escaped_itself hitself _) rfl ih
    · rename_i hc
      exact Escapes.unescape_of_step (Escapes.step_of_ne (not_or.1 hc).1 _) rfl ih

theorem body?_of_ne {quote c : Char} (hc : c ≠ '\\') (rest : List Char) :
    body? quote (c :: rest) =
      if c = quote then some ([], rest)
      else (body? quote rest).map fun (inside, after) => (c :: inside, after) := by
  rw [body?]
  rintro _ _ rfl
  exact absurd rfl hc

theorem body?_quotedBody {quote : Char} (hquote : quote ≠ '\\') (s rest : List Char) :
    body? quote (quotedBody quote s ++ quote :: rest) = some (quotedBody quote s, rest) := by
  induction s with
  | nil => exact (body?_of_ne hquote rest).trans (if_pos rfl)
  | cons c s ih =>
    rw [quotedBody] at ih
    rw [quotedBody, List.flatMap_cons]
    split
    · simp only [List.cons_append, List.nil_append, body?, ih, Option.map_some]
    · rename_i hc
      rw [not_or] at hc
      simp only [List.cons_append, List.nil_append, body?_of_ne hc.1, if_neg hc.2, ih,
        Option.map_some]

theorem ne_backslash_of_quote {quote : Char} (h : quote ∈ ['\'', '"']) : quote ≠ '\\' := by
  rintro rfl
  revert h
  decide

theorem next_of_quote {quote : Char} (hquote : quote ∈ ['\'', '"']) (s : List Char) :
    next (quote :: s) = quoted quote s := by
  simp only [List.mem_cons, List.not_mem_nil, or_false] at hquote
  rcases hquote with rfl | rfl <;> rfl

/-- A text in quotes is read up to its closing quote. -/
theorem next_of_text {quote : Char} (hquote : quote ∈ ['\'', '"']) (s rest : List Char) :
    next (quote :: (quotedBody quote s ++ quote :: rest)) =
      .ok (.text (String.ofList s), rest) := by
  rw [next_of_quote hquote, quoted, body?_quotedBody (ne_backslash_of_quote hquote)]
  simp only [unescape_quotedBody hquote]
  rfl

/-! ## Marks -/

theorem after?_append {p s rest : List Char} (hp : ∀ c ∈ p, isBlank c = false)
    (hrest : ∀ c ∈ rest.head?, isBlank c = true) :
    after? p (s ++ rest) = (after? p s).map (· ++ rest) := by
  induction p generalizing s with
  | nil => rfl
  | cons c p ih =>
    cases s with
    | nil =>
      cases rest with
      | nil => rfl
      | cons d rest =>
        have hne : d ≠ c := ne_of_isBlank (hrest d rfl) (hp c List.mem_cons_self)
        rw [List.nil_append, after?, if_neg hne.symm]
        rfl
    | cons d s =>
      rw [List.cons_append, after?, after?, ih fun c hc => hp c (List.mem_cons_of_mem _ hc)]
      split <;> rfl

theorem not_isBlank_of_mem_spelling (m : Mark) : ∀ c ∈ m.spelling.toList, isBlank c = false := by
  have hall : m.spelling.toList.all (isBlank · == false) = true := by
    cases m <;> rfl
  exact fun c hc => beq_iff_eq.1 (List.all_eq_true.1 hall c hc)

/-- What follows a blank does not matter to the marks that a text starts with. -/
theorem read?_append {s rest : List Char} (hrest : ∀ c ∈ rest.head?, isBlank c = true) :
    Mark.read? (s ++ rest) = (Mark.read? s).map fun found => (found.1, found.2 ++ rest) := by
  unfold Mark.read?
  induction Mark.all with
  | nil => rfl
  | cons m marks ih =>
    rw [List.findSome?_cons, List.findSome?_cons, ih,
      after?_append (not_isBlank_of_mem_spelling m) hrest]
    cases after? m.spelling.toList s <;> rfl

/-- A mark is read in full, and not a shorter one. -/
theorem read?_spelling (m : Mark) : Mark.read? m.spelling.toList = some (m, []) := by
  cases m <;> rfl

theorem startsNumeral_spelling (m : Mark) {rest : List Char}
    (hdot : m = .dot → ∀ c ∈ rest.head?, isDigit c = false) :
    startsNumeral (m.spelling.toList ++ rest) = false := by
  cases m
  case dot =>
    cases rest with
    | nil => rfl
    | cons c rest => exact hdot rfl c rfl
  all_goals rfl

/-- A mark is read where it is the first in the list of marks, but for a point before a digit. -/
theorem next_of_mark (m : Mark) {rest : List Char}
    (hread : Mark.read? (m.spelling.toList ++ rest) = some (m, rest))
    (hdot : m = .dot → ∀ c ∈ rest.head?, isDigit c = false) :
    next (m.spelling.toList ++ rest) = .ok (.mark m, rest) := by
  have hfirst : ∃ c s, m.spelling.toList = c :: s ∧ c ≠ '\'' ∧ c ≠ '"' := by
    cases m <;> exact ⟨_, _, rfl, by decide, by decide⟩
  obtain ⟨c, s, hspelling, hsingle, hdouble⟩ := hfirst
  have hnumeral := startsNumeral_spelling m hdot
  rw [hspelling] at hnumeral hread ⊢
  rw [List.cons_append] at hnumeral hread ⊢
  rw [next_of_ne hnumeral hsingle hdouble, hread]

/-! ## Decimal numbers -/

theorem isDigit_of_isDigitIn {c : Char} {d : Nat} (h : IsDigitIn 10 c d) :
    isDigit c = true ∧ c.toNat - '0'.toNat = d := by
  have hall : ∀ d < 10, (Nat.digitChar d).toUpper = Nat.digitChar d ∧
      isDigit (Nat.digitChar d) = true ∧ (Nat.digitChar d).toNat - '0'.toNat = d := by
    decide
  obtain ⟨hupper, hdigit⟩ := hall d h.1
  obtain ⟨-, rfl | rfl⟩ := h
  · exact hdigit
  · rwa [hupper]

theorem isDigit_of_spellsIn {digits : List Char} {n : Nat} (h : SpellsIn 10 digits n) :
    ∀ c ∈ digits, isDigit c = true := by
  intro c hc
  obtain ⟨d, hd⟩ := h.isDigitIn c hc
  exact (isDigit_of_isDigitIn hd).1

theorem ofDigits_of_spellsIn {digits : List Char} {n : Nat} (h : SpellsIn 10 digits n) :
    ofDigits digits = n := by
  induction h with
  | digit hc =>
    rw [ofDigits, List.foldl_cons, (isDigit_of_isDigitIn hc).2, List.foldl_nil, Nat.mul_zero,
      Nat.zero_add]
  | snoc _ hc ih =>
    rw [ofDigits] at ih
    rw [ofDigits, List.foldl_append, ih, List.foldl_cons, (isDigit_of_isDigitIn hc).2,
      List.foldl_nil]

/-- A number that is small enough is not rounded to zero or to the infinity. -/
theorem toFloat_of_lt {n : Nat} (h : n < exactBound) :
    Decimal.toFloat ⟨false, n, 0⟩ = Float.ofNat n := by
  have hlength : (Nat.toDigits 10 n).length ≤ 16 :=
    (Nat.length_toDigits_le_iff (by decide) (by decide)).2 (Nat.lt_trans h (by decide))
  have hover : ¬ overflowPower < (Nat.toDigits 10 n).length + 0 := by
    rw [overflowPower]
    omega
  have hunder : ¬ ((Nat.toDigits 10 n).length : Int) + 0 < underflowPower := by
    rw [underflowPower]
    omega
  by_cases hzero : n = 0
  · subst hzero
    rfl
  · have hsmall : ¬ (n = 0 ∨ ((Nat.toDigits 10 n).length : Int) + 0 < underflowPower) :=
      not_or.2 ⟨hzero, hunder⟩
    simp only [Decimal.toFloat, withSign, if_neg Bool.false_ne_true, if_neg hsmall, if_neg hover]
    rfl

theorem decimal?_of_spellsIn {digits : List Char} {n : Nat} (h : SpellsIn 10 digits n)
    (hbound : n < exactBound) : decimal? digits = some (Float.ofNat n) := by
  have hall : AllDigits digits := isDigit_of_spellsIn h
  have hspan : digits.span isDigit = (digits, []) := by
    have hnil := @span_append digits [] hall fun c hc => absurd hc (Option.not_mem_none c)
    rwa [List.append_nil] at hnil
  have hliteral : literal? digits = some ⟨false, n, 0⟩ := by
    obtain ⟨c, rest, rfl⟩ := List.exists_cons_of_ne_nil h.ne_nil
    rw [literal?, splitSign_of_ne hall.ne_sign.1 hall.ne_sign.2]
    simp only [hspan]
    rw [← ofDigits_of_spellsIn h]
    simp [splitFraction, exponent?]
  rw [decimal?, hliteral, Option.map_some, toFloat_of_lt hbound]

theorem base?_of_digits {digits rest : List Char} (hdigits : ∀ c ∈ digits, isDigit c = true)
    (hrest : ∀ c ∈ rest.head?, isBlank c = true) (hne : digits ≠ []) :
    Numeral.base? (digits ++ rest) = none := by
  obtain ⟨c, digits, rfl⟩ := List.exists_cons_of_ne_nil hne
  unfold Numeral.base?
  split
  · rename_i letter after heq
    have heq : digits ++ rest = letter :: after := (List.cons.inj heq).2
    have hradix : radix? letter = none := by
      cases digits with
      | nil =>
        rw [List.nil_append] at heq
        exact Numeral.radix?_of_isBlank (hrest letter (by rw [heq]; rfl))
      | cons d digits =>
        cases heq
        exact Numeral.radix?_of_isDigit (hdigits letter (by simp))
    rw [hradix, Option.map_none]
  · rfl

/-- A decimal number is read up to the blank after it. -/
theorem next_of_decimal {digits rest : List Char} {n : Nat} (h : SpellsIn 10 digits n)
    (hbound : n < exactBound) (hrest : ∀ c ∈ rest.head?, isBlank c = true) :
    next (digits ++ rest) = .ok (.number (Float.ofNat n), rest) := by
  have hdigits := isDigit_of_spellsIn h
  have hwhole : ∀ c ∈ digits, Numeral.State.whole.next? c = some .whole := by
    intro c hc
    simp [Numeral.State.next?, hdigits c hc]
  have hunderscore : '_' ∉ digits := fun hmem => by cases hdigits '_' hmem
  have hnumeral : startsNumeral (digits ++ rest) = true := by
    obtain ⟨c, digits, rfl⟩ := List.exists_cons_of_ne_nil h.ne_nil
    have hc := hdigits c List.mem_cons_self
    have hne : c ≠ '.' := by
      rintro rfl
      cases hc
    exact (startsNumeral_of_ne hne _).trans hc
  rw [next_of_numeral hnumeral, Numeral.read, base?_of_digits hdigits hrest h.ne_nil]
  simp only [Numeral.extent_append_of_fixed hwhole hrest,
    (Numeral.decimal_eq_ok_iff hunderscore).2 (decimal?_of_spellsIn h hbound)]
  rfl

/-! ## Numbers in other bases -/

theorem next?_of_isDigitIn {base d : Nat} {c : Char} (hbase : base ∈ [2, 8, 16])
    (h : IsDigitIn base c d) :
    (Numeral.State.based (base == 16)).next? c = some (.based (base == 16)) := by
  have hall : ∀ base ∈ [2, 8, 16], ∀ d < base,
      (Numeral.State.based (base == 16)).next? (Nat.digitChar d) =
          some (.based (base == 16)) ∧
        (Numeral.State.based (base == 16)).next? (Nat.digitChar d).toUpper =
          some (.based (base == 16)) := by
    decide
  obtain ⟨hd, rfl | rfl⟩ := h
  · exact (hall base hbase d hd).1
  · exact (hall base hbase d hd).2

/-- A number in another base is read up to the blank after it. -/
theorem next_of_based {letter : Char} {base n : Nat} {digits rest : List Char}
    (hletter : (letter, base) ∈ baseLetters) (h : SpellsIn base digits n) (hbound : n < exactBound)
    (hrest : ∀ c ∈ rest.head?, isBlank c = true) :
    next ('0' :: letter :: (digits ++ rest)) = .ok (.number (Float.ofNat n), rest) := by
  have hradix := mem_baseLetters_iff.1 hletter
  have hbase := base_le_of_radix? hradix
  have hstate : ∀ c ∈ digits, (Numeral.State.based (base == 16)).next? c =
      some (.based (base == 16)) := by
    intro c hc
    obtain ⟨d, hd⟩ := h.isDigitIn c hc
    exact next?_of_isDigitIn (mem_of_radix? hradix) hd
  have hunderscore : '_' ∉ digits := by
    intro hmem
    obtain ⟨d, hd⟩ := h.isDigitIn '_' hmem
    exact ne_of_isDigitIn hbase hd rfl rfl
  have hbased : Numeral.based base digits = .ok (Float.ofNat n) := by
    obtain ⟨values, hvalues, rfl⟩ := h.exists_values hbase
    have hfits := fitsSignificand_of_lt (Nat.lt_of_le_of_lt (Nat.div_le_self _ base) hbound)
    exact (Numeral.based_eq_ok_iff hunderscore).2 ⟨h.ne_nil, values, hvalues,
      accumulate_eq (mem_of_radix? hradix) hvalues (Nat.lt_trans hbound (by decide)) hfits⟩
  have hfound : Numeral.base? ('0' :: letter :: (digits ++ rest)) =
      some (base, digits ++ rest) := by
    rw [Numeral.base?, hradix, Option.map_some]
  rw [next_of_numeral rfl, Numeral.read, hfound]
  simp only [Numeral.extent_append_of_fixed hstate hrest, hbased]
  rfl

/-! ## Any tokens -/

/-- A token is read up to the blank after it. -/
theorem next_of_writes {t : Token} {word rest : List Char} (h : t.Writes word)
    (hrest : ∀ c ∈ rest.head?, isBlank c = true) : next (word ++ rest) = .ok (t, rest) := by
  cases h with
  | name hc hs => exact next_of_name hc hs fun d hd => not_continuesName_of_isBlank (hrest d hd)
  | text s hquote =>
    rw [List.cons_append, List.append_assoc]
    exact next_of_text hquote s rest
  | decimal hdigits hbound => exact next_of_decimal hdigits hbound hrest
  | based hletter hdigits hbound => exact next_of_based hletter hdigits hbound hrest
  | mark m =>
    refine next_of_mark m ?_ fun _ d hd => Numeral.not_isDigit_of_isBlank (hrest d hd)
    rw [read?_append hrest, read?_spelling]
    rfl

/-- No token starts with a blank. -/
theorem head_of_writes {t : Token} {word : List Char} (h : t.Writes word) :
    ∃ c s, word = c :: s ∧ isBlank c = false := by
  cases h with
  | name hc => exact ⟨_, _, rfl, not_isBlank_of_isNamePart (isNamePart_of_isNameStart hc)⟩
  | text s hquote =>
    refine ⟨_, _, rfl, ?_⟩
    simp only [List.mem_cons, List.not_mem_nil, or_false] at hquote
    rcases hquote with rfl | rfl <;> rfl
  | decimal hdigits =>
    obtain ⟨c, s, rfl⟩ := List.exists_cons_of_ne_nil hdigits.ne_nil
    refine ⟨c, s, rfl, Bool.eq_false_iff.2 fun hblank => ?_⟩
    have hdigit := isDigit_of_spellsIn hdigits c List.mem_cons_self
    cases hdigit.symm.trans (Numeral.not_isDigit_of_isBlank hblank)
  | based => exact ⟨_, _, rfl, rfl⟩
  | mark m =>
    have hblank := not_isBlank_of_mem_spelling m
    obtain ⟨c, s, hspelling, -⟩ := not_startsName_of_mark m
    exact ⟨c, s, hspelling, hblank c (hspelling ▸ List.mem_cons_self)⟩

/-- **Lexing undoes spelling.** However tokens are written, with blanks between them, they are the
tokens of the text. -/
theorem tokens_of_writes {ts : List Token} {s : List Char} (h : Writes ts s) :
    tokens s = .ok ts := by
  induction h with
  | nil hblanks => exact tokens_of_blanks hblanks
  | cons hblanks hword hrest _ ih =>
    have hnext := next_of_writes hword hrest
    obtain ⟨c, s, rfl, hc⟩ := head_of_writes hword
    rw [List.cons_append] at hnext ⊢
    rw [tokens_of_next hblanks hc hnext, ih]
    rfl

/-- A name, a text with a quote and a backslash in it, and a number before two marks that would be
one mark without the blank between them. -/
theorem tokens_of_writes_mixed :
    Writes [.name "$a1", .text "'\\", .number 31, .mark .plus, .mark .assign]
        "\t$a1 '\\'\\\\' 0X1f\n+ =".toList ∧
      tokens "\t$a1 '\\'\\\\' 0X1f\n+ =".toList =
        .ok [.name "$a1", .text "'\\", .number 31, .mark .plus, .mark .assign] := by
  have hblank {c : Char} (hc : isBlank c = true) : ∀ d ∈ [c], isBlank d = true :=
    List.forall_mem_singleton.2 hc
  have hassign : Writes [.mark .assign] [' ', '='] :=
    @Writes.cons _ _ [' '] _ [] (hblank rfl) (.mark .assign) (by simp) (.nil (by simp))
  have hplus : Writes [.mark .plus, .mark .assign] "\n+ =".toList :=
    @Writes.cons _ _ ['\n'] _ _ (hblank rfl) (.mark .plus) (fun d hd => by cases hd; rfl) hassign
  have hnumber : (Token.number 31).Writes "0X1f".toList :=
    @Token.Writes.based 'X' 16 31 ['1', 'f'] (by decide) ((spellsIn_iff (by decide)).2 (by decide))
      (by decide)
  have htext : (Token.text "'\\").Writes "'\\'\\\\'".toList :=
    @Token.Writes.text '\'' ['\'', '\\'] (by decide)
  have hname : (Token.name "$a1").Writes "$a1".toList :=
    @Token.Writes.name '$' ['a', '1'] (.inr (.inr rfl)) (by simp [IsNamePart])
  have h : Writes [.name "$a1", .text "'\\", .number 31, .mark .plus, .mark .assign]
      "\t$a1 '\\'\\\\' 0X1f\n+ =".toList :=
    @Writes.cons _ _ ['\t'] _ _ (hblank rfl) hname (fun d hd => by cases hd; rfl)
      (@Writes.cons _ _ [' '] _ _ (hblank rfl) htext (fun d hd => by cases hd; rfl)
        (@Writes.cons _ _ [' '] _ _ (hblank rfl) hnumber (fun d hd => by cases hd; rfl) hplus))
  exact ⟨h, tokens_of_writes h⟩

end Lexer

end Stencil
