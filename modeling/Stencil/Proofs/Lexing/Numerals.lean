import Stencil.Proofs.Lexing.Basic
import Stencil.Proofs.Number.Accepted
import Stencil.Proofs.Number.Nearest

/-!
# Numerals as texts

A text that is one numeral is turned into the number of the numeral, if it is a decimal one. In
another base the digits of a numeral are summed up in doubles, while a text is read as a word, which
is then rounded once. The two agree as long as no sum but the last is rounded.

* `numeralText_of_read`: a numeral is a decimal literal, or digits in another base
* `numeralText_of_tokens`: the text that is one token, a number
* `toNumber_of_tokens`: the main statement
* `toNumber_ne_number`: a numeral with sums that are rounded
-/

namespace Stencil

open Stencil.Number Stencil.Text

namespace Lexer

/-! ## One numeral -/

theorem quoted_eq_ok {quote : Char} {s rest : List Char} {t : Token}
    (h : quoted quote s = .ok (t, rest)) : ∃ text, t = .text text := by
  unfold quoted at h
  split at h
  · rename_i inside after _
    cases htext : Escapes.unescape inside with
    | error e =>
      rw [htext] at h
      cases h
    | ok text =>
      rw [htext] at h
      cases h
      exact ⟨_, rfl⟩
  · cases h

/-- Only numerals are numbers. -/
theorem read_of_next {s rest : List Char} {x : Float} (h : next s = .ok (.number x, rest)) :
    startsNumeral s = true ∧ Numeral.read s = .ok (x, rest) := by
  by_cases hs : startsNumeral s = true
  · rw [next_of_numeral hs] at h
    cases hread : Numeral.read s with
    | error e =>
      rw [hread] at h
      cases h
    | ok found =>
      rw [hread] at h
      cases h
      exact ⟨hs, rfl⟩
  · unfold next at h
    rw [if_neg hs] at h
    split at h
    · obtain ⟨text, htext⟩ := quoted_eq_ok h
      cases htext
    · obtain ⟨text, htext⟩ := quoted_eq_ok h
      cases htext
    · split at h
      · cases h
      · unfold name at h
        split at h
        · split at h <;> cases h
        · cases h

theorem trimStart_append_self (s : List Char) :
    ∃ before, s = before ++ trimStart s ∧ ∀ c ∈ before, isBlank c = true :=
  ⟨s.takeWhile isBlank, List.takeWhile_append_dropWhile.symm,
    List.all_eq_true.1 List.all_takeWhile⟩

theorem head_trimStart (s : List Char) : ∀ c ∈ (trimStart s).head?, isBlank c = false := by
  intro c hc
  have hhead := List.head?_dropWhile_not isBlank s
  rw [trimStart] at hc
  rwa [hc] at hhead

theorem blank_of_tokens_eq_nil {s : List Char} (h : tokens s = .ok []) :
    ∀ c ∈ s, isBlank c = true := by
  rw [tokens] at h
  split at h
  · rename_i hempty
    obtain ⟨before, hs, hbefore⟩ := trimStart_append_self s
    rw [List.isEmpty_iff.1 hempty, List.append_nil] at hs
    exact hs ▸ hbefore
  split at h
  · cases h
  · rename_i t rest _
    cases hrest : tokens rest <;> rw [hrest] at h <;> cases h

/-- The first token of a text stands behind blanks only, and the others behind it. -/
theorem next_of_tokens {s : List Char} {t : Token} {ts : List Token}
    (h : tokens s = .ok (t :: ts)) :
    ∃ before inner rest, s = before ++ inner ∧ (∀ c ∈ before, isBlank c = true) ∧
      (∀ c ∈ inner.head?, isBlank c = false) ∧ next inner = .ok (t, rest) ∧
      tokens rest = .ok ts := by
  obtain ⟨before, hs, hbefore⟩ := trimStart_append_self s
  rw [tokens] at h
  split at h
  · cases h
  split at h
  · cases h
  · rename_i t' rest hnext
    cases hrest : tokens rest with
    | error e =>
      rw [hrest] at h
      cases h
    | ok ts =>
      rw [hrest] at h
      cases h
      exact ⟨before, _, rest, hs, hbefore, head_trimStart s, hnext, hrest⟩

theorem head_of_startsNumeral {c : Char} {s : List Char} (h : startsNumeral (c :: s) = true) :
    c ≠ '+' ∧ c ≠ '-' := by
  by_cases hpoint : c = '.'
  · subst hpoint
    decide
  · rw [startsNumeral_of_ne hpoint] at h
    constructor <;> rintro rfl <;> cases h

end Lexer

/-- A numeral without underscores, and the number that is read from it. -/
inductive NumeralText (x : Float) : List Char → Prop
  | decimal {literal : List Char} :
      DecimalLiteral literal → decimal? literal = some x → NumeralText x literal
  | based {letter : Char} {base : Nat} {digits : List Char} {values : List Nat} :
      (letter, base) ∈ baseLetters → digits ≠ [] →
      digits.mapM (digitValue? base) = some values → Numeral.accumulate base values = x →
      NumeralText x ('0' :: letter :: digits)

theorem NumeralText.ne_nil {x : Float} {word : List Char} (h : NumeralText x word) :
    word ≠ [] := by
  rintro rfl
  cases h with
  | decimal _ hx => cases hx

theorem decimalLiteral_of_head {c : Char} {s : List Char} (hplus : c ≠ '+') (hminus : c ≠ '-')
    (h : (literal? (c :: s)).isSome) : DecimalLiteral (c :: s) := by
  obtain ⟨sign, hsign, literal, hs, hliteral⟩ := literal?_isSome_iff.1 h
  simp only [signs, List.mem_cons, List.not_mem_nil, or_false] at hsign
  rcases hsign with rfl | rfl | rfl
  · rwa [hs]
  · exact absurd (List.cons.inj hs).1 hplus
  · exact absurd (List.cons.inj hs).1 hminus

theorem eq_ok_of_map {α : Type} {e : Except Error α} {x : α} {after rest : List Char}
    (h : (e.map fun x => (x, after)) = .ok (x, rest)) : e = .ok x ∧ after = rest := by
  cases e with
  | error e => cases h
  | ok y =>
    cases h
    exact ⟨rfl, rfl⟩

theorem Numeral.base?_eq_some_iff {base : Nat} {s rest : List Char} :
    Numeral.base? s = some (base, rest) ↔
      ∃ letter, (letter, base) ∈ baseLetters ∧ s = '0' :: letter :: rest := by
  constructor
  · intro h
    unfold Numeral.base? at h
    split at h
    · rename_i letter rest'
      obtain ⟨base', hradix, hpair⟩ := Option.map_eq_some_iff.1 h
      cases hpair
      exact ⟨letter, mem_baseLetters_iff.2 hradix, rfl⟩
    · cases h
  · rintro ⟨letter, hletter, rfl⟩
    rw [Numeral.base?, mem_baseLetters_iff.1 hletter, Option.map_some]

/-- A numeral is a text without blanks that is read as a number. -/
theorem numeralText_of_read {s rest : List Char} {x : Float} (hunderscore : '_' ∉ s)
    (hstarts : Lexer.startsNumeral s = true) (h : Numeral.read s = .ok (x, rest)) :
    ∃ word, s = word ++ rest ∧ NumeralText x word ∧ ∀ c ∈ word, isBlank c = false := by
  unfold Numeral.read at h
  split at h
  · rename_i base after hbase
    obtain ⟨letter, hletter, rfl⟩ := Numeral.base?_eq_some_iff.1 hbase
    obtain ⟨hx, rfl⟩ := eq_ok_of_map h
    have hsplit := Numeral.extent_append (.based (base == 16)) after
    have hblank := Numeral.not_isBlank_of_mem_extent (.based (base == 16)) after
    have hdigits : '_' ∉ (Numeral.extent (.based (base == 16)) after).1 := fun hmem =>
      hunderscore (by rw [← hsplit]; simp [hmem])
    obtain ⟨hne, values, hvalues, hsum⟩ := (Numeral.based_eq_ok_iff hdigits).1 hx
    refine ⟨_, ?_, .based hletter hne hvalues hsum, ?_⟩
    · rw [List.cons_append, List.cons_append, hsplit]
    · refine List.forall_mem_cons.2 ⟨rfl, List.forall_mem_cons.2 ⟨?_, hblank⟩⟩
      refine Bool.eq_false_iff.2 fun hspace => ?_
      cases (mem_baseLetters_iff.1 hletter).symm.trans (Numeral.radix?_of_isBlank hspace)
  · obtain ⟨hx, rfl⟩ := eq_ok_of_map h
    have hsplit := Numeral.extent_append .whole s
    have hword : '_' ∉ (Numeral.extent .whole s).1 :=
      fun hmem => hunderscore (hsplit ▸ List.mem_append_left _ hmem)
    have hdecimal := (Numeral.decimal_eq_ok_iff hword).1 hx
    refine ⟨_, hsplit.symm, .decimal ?_ hdecimal, Numeral.not_isBlank_of_mem_extent .whole s⟩
    obtain ⟨d, hliteral, -⟩ := Option.map_eq_some_iff.1 hdecimal
    generalize (Numeral.extent .whole s).1 = word at hsplit hliteral
    cases word with
    | nil => cases hliteral
    | cons c word =>
      rw [← hsplit, List.cons_append] at hstarts
      obtain ⟨hplus, hminus⟩ := Lexer.head_of_startsNumeral hstarts
      exact decimalLiteral_of_head hplus hminus (Option.isSome_of_eq_some hliteral)

/-- A text that is one numeral without underscores, but for the blanks around it. -/
theorem numeralText_of_tokens {s : List Char} {x : Float} (hunderscore : '_' ∉ s)
    (h : Lexer.tokens s = .ok [.number x]) : NumeralText x (trim s) := by
  obtain ⟨before, inner, rest, rfl, hbefore, -, hnext, hrest⟩ := Lexer.next_of_tokens h
  obtain ⟨hstarts, hread⟩ := Lexer.read_of_next hnext
  have hinner : '_' ∉ inner := fun hmem => hunderscore (List.mem_append_right _ hmem)
  obtain ⟨word, rfl, hword, hblank⟩ := numeralText_of_read hinner hstarts hread
  rwa [trim_append hbefore (fun c hc => hblank c (List.mem_of_mem_head? hc))
    (fun c hc => hblank c (List.mem_of_getLast? hc)) (Lexer.blank_of_tokens_eq_nil hrest)
    hword.ne_nil]

namespace Value

/-- **Numerals as texts.** A text that is one decimal numeral is turned into the number of the
numeral. In another base it is turned into the double nearest to the number that the digits spell,
if that fits into a word; the numeral is the same double if no sum but the last is rounded. -/
theorem toNumber_of_tokens {t : String} {x : Float} (hunderscore : '_' ∉ t.toList)
    (h : Lexer.tokens t.toList = .ok [.number x]) :
    DecimalLiteral (trim t.toList) ∧ (string t).toNumber = x ∨
      ∃ letter base digits n, trim t.toList = '0' :: letter :: digits ∧
        (letter, base) ∈ baseLetters ∧ SpellsIn base digits n ∧
        (n < wordBound → (string t).toNumber = Float.ofNat n ∧
          (FitsSignificand (n / base) → (string t).toNumber = x)) := by
  have hnumber : (string t).toNumber = ofTrimmed (trim t.toList) := rfl
  rw [hnumber]
  have hword := numeralText_of_tokens hunderscore h
  generalize trim t.toList = word at hword
  cases hword with
  | decimal hliteral hx =>
    obtain ⟨d, hd, rfl⟩ := Option.map_eq_some_iff.1 hx
    exact .inl ⟨hliteral, ofTrimmed_of_literal? hd⟩
  | @based letter base digits values hletter hne hvalues hsum =>
    have hradix := mem_baseLetters_iff.1 hletter
    have hbase := base_le_of_radix? hradix
    have hspells : SpellsIn base digits (valueIn base values) :=
      (spellsIn_iff hbase).2 (wholeNumber?_eq_some_iff.2 ⟨hne, values, hvalues, rfl⟩)
    refine .inr ⟨letter, base, digits, _, rfl, hletter, hspells, fun hbound => ?_⟩
    have hword : word? base digits = some (valueIn base values) :=
      (word?_eq_some_iff hbase).2 ⟨[], by decide, digits, rfl, hspells, hbound⟩
    rw [ofTrimmed_of_radix? hradix, hword]
    refine ⟨rfl, fun hfits => ?_⟩
    rw [← hsum, accumulate_eq (mem_of_radix? hradix) hvalues hbound hfits]
    rfl

/-- Of `2 ^ 53 + 1`, which is halfway between two doubles, only the last sum is rounded. -/
theorem toNumber_of_tokens_halfway :
    '_' ∉ "0x20000000000001".toList ∧
      Lexer.tokens "0x20000000000001".toList = .ok [.number 9007199254740992] ∧
      (string "0x20000000000001").toNumber = 9007199254740992 := by
  have hunderscore : '_' ∉ "0x20000000000001".toList := by decide
  have htokens : Lexer.tokens "0x20000000000001".toList = .ok [.number 9007199254740992] := by
    decide +kernel
  refine ⟨hunderscore, htokens, ?_⟩
  rcases toNumber_of_tokens hunderscore htokens with ⟨-, hnumber⟩ |
    ⟨letter, base, digits, n, htrim, hletter, hspells, hnumber⟩
  · exact hnumber
  have hword : trim "0x20000000000001".toList = '0' :: 'x' :: "20000000000001".toList := by decide
  rw [hword] at htrim
  obtain ⟨-, rfl, rfl⟩ := List.cons_eq_cons.1 htrim |>.imp_right List.cons_eq_cons.1
  have hbase : base = 16 := by
    have hradix := mem_baseLetters_iff.1 hletter
    exact (Option.some_inj.1 hradix).symm
  subst hbase
  have hn : wholeNumber? 16 "20000000000001".toList = some 0x20000000000001 := by decide
  have hvalue := (spellsIn_iff (by decide)).1 hspells
  obtain rfl := Option.some_inj.1 (hvalue.symm.trans hn)
  exact (hnumber (by decide)).2 (fitsSignificand_of_lt (by decide))

/-- Of `2 ^ 58 + 33` the sum before the last one is rounded down, and so is the last one then. The
number itself is rounded up. -/
theorem toNumber_ne_number :
    '_' ∉ "0x400000000000021".toList ∧
      Lexer.tokens "0x400000000000021".toList = .ok [.number 288230376151711744] ∧
      (string "0x400000000000021").toNumber ≠ 288230376151711744 := by
  refine ⟨by decide, by decide +kernel, by decide +kernel⟩

end Value

end Stencil
