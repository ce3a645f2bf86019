import Stencil.Proofs.Number.Digits
import Stencil.Token.Lexer

/-!
# Blanks, and the extent of numerals

Blanks separate tokens and are no part of them, but for those in quotes. In particular a numeral
ends where a blank stands.

* `trim_append`: the blanks around a text are cut off
* `after?_eq_some_iff`: what a text begins with, and what follows it
* `tokens_of_blanks`, `tokens_of_next`: the tokens of a text, one by one
* `extent_append_of_fixed`: digits that are followed by no digit are a numeral
-/

namespace Stencil

namespace Text

section

variable {before inner after s : List Char}

theorem ne_of_isBlank {c d : Char} (hc : isBlank c = true) (hd : isBlank d = false) : c ≠ d := by
  rintro rfl
  cases hc.symm.trans hd

theorem isBlank_of_isLineSeparator {c : Char} (h : isLineSeparator c = true) :
    isBlank c = true := by
  rw [isLineSeparator, Bool.or_eq_true, beq_iff_eq, beq_iff_eq] at h
  rcases h with rfl | rfl <;> rfl

theorem trimStart_append (hbefore : ∀ c ∈ before, isBlank c = true)
    (hs : ∀ c ∈ s.head?, isBlank c = false) : trimStart (before ++ s) = s :=
  (Number.takeWhile_append_of_head hbefore hs).2

theorem trimStart_of_blanks (h : ∀ c ∈ before, isBlank c = true) : trimStart before = [] := by
  have hnil := trimStart_append (s := []) h fun c hc => absurd hc (Option.not_mem_none c)
  rwa [List.append_nil] at hnil

/-- The blanks around a text that has none at its ends are cut off. -/
theorem trim_append (hbefore : ∀ c ∈ before, isBlank c = true)
    (hhead : ∀ c ∈ inner.head?, isBlank c = false) (hlast : ∀ c ∈ inner.getLast?, isBlank c = false)
    (hafter : ∀ c ∈ after, isBlank c = true) (hne : inner ≠ []) :
    trim (before ++ (inner ++ after)) = inner := by
  have hstart : ∀ c ∈ (inner ++ after).head?, isBlank c = false := by
    rwa [List.head?_append, Option.or_of_isSome (List.isSome_head?.2 hne)]
  have hend : trimStart (after.reverse ++ inner.reverse) = inner.reverse :=
    trimStart_append (fun c hc => hafter c (List.mem_reverse.1 hc)) (by rwa [List.head?_reverse])
  rw [trimStart] at hend
  rw [trim, trimStart_append hbefore hstart, trimEnd, List.reverse_append, hend,
    List.reverse_reverse]

end

end Text

namespace Numeral

open Stencil.Number Stencil.Text

theorem letterValue?_of_isBlank {c : Char} (h : isBlank c = true) : letterValue? c = none := by
  have hall : ∀ n < 128, isBlank (Char.ofNat n) = true → letterValue? (Char.ofNat n) = none := by
    decide +kernel
  refine Option.eq_none_iff_forall_ne_some.2 fun d hvalue => ?_
  have hnone := hall c.toNat (toNat_lt_of_letterValue? hvalue)
  rw [Char.ofNat_toNat] at hnone
  cases (hnone h).symm.trans hvalue

theorem not_isDigit_of_isBlank {c : Char} (h : isBlank c = true) : isDigit c = false := by
  have hvalue := letterValue?_of_isBlank h
  unfold letterValue? at hvalue
  split at hvalue
  · cases hvalue
  · rename_i hdigit
    exact Bool.eq_false_iff.2 hdigit

theorem radix?_of_isDigit {c : Char} (h : isDigit c = true) : radix? c = none := by
  unfold radix?
  split <;> first | cases h | rfl

theorem radix?_of_isBlank {c : Char} (h : isBlank c = true) : radix? c = none := by
  unfold radix?
  split <;> first | cases h | rfl

/-- No blank is part of a numeral. -/
theorem next?_of_isBlank {c : Char} (h : isBlank c = true) (state : State) :
    state.next? c = none := by
  have hne {d : Char} (hd : isBlank d = false) : c ≠ d := ne_of_isBlank h hd
  unfold State.next?
  rw [not_isDigit_of_isBlank h, if_neg Bool.false_ne_true, if_neg (hne rfl)]
  cases state with
  | based hex => simp [digitValue?, letterValue?_of_isBlank h]
  | whole => rw [if_neg (hne rfl), if_neg (not_or.2 ⟨hne rfl, hne rfl⟩)]
  | fraction => exact if_neg (not_or.2 ⟨hne rfl, hne rfl⟩)
  | exponent => exact if_neg (not_or.2 ⟨hne rfl, hne rfl⟩)
  | power => rfl

theorem not_isBlank_of_mem_extent (state : State) (s : List Char) :
    ∀ c ∈ (extent state s).1, isBlank c = false := by
  induction s generalizing state with
  | nil => exact fun c hc => absurd hc List.not_mem_nil
  | cons c s ih =>
    unfold extent
    split
    · rename_i state' hnext
      refine List.forall_mem_cons.2 ⟨?_, ih state'⟩
      refine Bool.eq_false_iff.2 fun hblank => ?_
      rw [next?_of_isBlank hblank] at hnext
      cases hnext
    · exact fun c hc => absurd hc List.not_mem_nil

/-- Characters that leave the state as it is belong to the numeral, up to the first character that
does not. -/
theorem extent_append_of_fixed {state : State} {digits rest : List Char}
    (hdigits : ∀ c ∈ digits, state.next? c = some state)
    (hrest : ∀ c ∈ rest.head?, isBlank c = true) :
    extent state (digits ++ rest) = (digits, rest) := by
  induction digits with
  | nil =>
    cases rest with
    | nil => rfl
    | cons c rest => simp only [List.nil_append, extent, next?_of_isBlank (hrest c rfl)]
  | cons c digits ih =>
    have hc := hdigits c List.mem_cons_self
    have htail := ih fun c hc => hdigits c (List.mem_cons_of_mem _ hc)
    simp only [List.cons_append, extent, hc, htail]

theorem dropUnderscores_of_not_mem {s : List Char} (h : '_' ∉ s) : dropUnderscores s = .ok s := by
  have hlast : s.getLast? ≠ some '_' := fun hlast => h (List.mem_of_getLast? hlast)
  have hfilter : s.filter (· != '_') = s :=
    List.filter_eq_self.2 fun c hc => bne_iff_ne.2 fun heq => h (heq ▸ hc)
  rw [dropUnderscores, if_neg hlast, hfilter]

/-- A numeral in another base without underscores has digits, which are summed up. -/
theorem based_eq_ok_iff {base : Nat} {s : List Char} {x : Float} (h : '_' ∉ s) :
    based base s = .ok x ↔ s ≠ [] ∧ ∃ values, s.mapM (digitValue? base) = some values ∧
      accumulate base values = x := by
  rw [based, dropUnderscores_of_not_mem h]
  cases s with
  | nil =>
    constructor
    · intro hx
      cases hx
    · exact fun hx => absurd rfl hx.1
  | cons c s =>
    cases hvalues : (c :: s).mapM (digitValue? base) with
    | none => simp [hvalues, bind, Except.bind]
    | some values => simp [hvalues, bind, Except.bind]

/-- A decimal numeral without underscores is a decimal literal. -/
theorem decimal_eq_ok_iff {s : List Char} {x : Float} (h : '_' ∉ s) :
    decimal s = .ok x ↔ decimal? s = some x := by
  rw [decimal, dropUnderscores_of_not_mem h]
  cases hx : decimal? s <;> simp [hx, bind, Except.bind]

end Numeral

namespace Lexer

open Stencil.Text

theorem after?_eq_some_iff {p s rest : List Char} : after? p s = some rest ↔ s = p ++ rest := by
  induction p generalizing s with
  | nil => exact Option.some_inj
  | cons c p ih =>
    cases s with
    | nil => simp [after?]
    | cons d s =>
      by_cases hc : c = d
      · simp [after?, hc, ih]
      · simp [after?, hc, Ne.symm hc]

/-- What starts neither a numeral nor a text in quotes is a mark or else a name. -/
theorem next_of_ne {c : Char} {s : List Char} (hnumeral : startsNumeral (c :: s) = false)
    (hsingle : c ≠ '\'') (hdouble : c ≠ '"') :
    next (c :: s) =
      match Mark.read? (c :: s) with
      | some (m, rest) => .ok (.mark m, rest)
      | none => name (c :: s) := by
  unfold next
  rw [hnumeral, if_neg Bool.false_ne_true]
  split
  · rename_i heq
    exact absurd (List.cons.inj heq).1 hsingle
  · rename_i heq
    exact absurd (List.cons.inj heq).1 hdouble
  · rfl

theorem startsNumeral_of_ne {c : Char} (h : c ≠ '.') (s : List Char) :
    startsNumeral (c :: s) = Number.isDigit c := by
  rw [startsNumeral]
  rintro _ _ rfl
  exact absurd rfl h

theorem next_of_numeral {s : List Char} (h : startsNumeral s = true) :
    next s = (Numeral.read s).map fun (x, rest) => (.number x, rest) := by
  unfold next
  rw [if_pos h]

theorem tokens_of_blanks {s : List Char} (h : ∀ c ∈ s, isBlank c = true) : tokens s = .ok [] := by
  rw [tokens, trimStart_of_blanks h]
  rfl

/-- The first token of a text is at its first character that is no blank. -/
theorem tokens_of_head {before s : List Char} {c : Char} (hbefore : ∀ c ∈ before, isBlank c = true)
    (hc : isBlank c = false) :
    tokens (before ++ c :: s) =
      (next (c :: s)).bind fun found => (tokens found.2).map (found.1 :: ·) := by
  have hstart : trimStart (before ++ c :: s) = c :: s :=
    trimStart_append hbefore fun d hd => Option.some.inj hd ▸ hc
  rw [tokens, hstart, if_neg (by simp)]
  split <;> rename_i heq <;> rw [heq] <;> rfl

/-- The first token of a text, and then the others. -/
theorem tokens_of_next {before s rest : List Char} {c : Char} {t : Token}
    (hbefore : ∀ c ∈ before, isBlank c = true) (hc : isBlank c = false)
    (hnext : next (c :: s) = .ok (t, rest)) :
    tokens (before ++ c :: s) = (tokens rest).map (t :: ·) := by
  rw [tokens_of_head hbefore hc, hnext]
  rfl

end Lexer

end Stencil
