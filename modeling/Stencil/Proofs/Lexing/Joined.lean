import Stencil.Proofs.Lexing.Numerals
import Stencil.Proofs.Lexing.Spelling

/-!
# Texts put together

A blank ends every token outside quotes, so the tokens of a text stay what they are if a text that
starts with a blank is put after it. A name also ends where any other character stands that is no
part of names.

* `next_append`: the first token of a text, with more text after it
* `tokens_append`: the tokens of two texts
* `tokens_name_append`, `tokens_around_name`: the tokens of a text with a name in it
-/

namespace Stencil

open Stencil.Number Stencil.Text

variable {s after rest : List Char}

/-- What follows a character outside the class does not matter. -/
theorem span_append_of_head {p : Char → Bool} (s : List Char)
    (hrest : ∀ c ∈ rest.head?, p c = false) :
    (s ++ rest).takeWhile p = s.takeWhile p ∧ (s ++ rest).dropWhile p = s.dropWhile p ++ rest := by
  induction s with
  | nil => exact takeWhile_append_of_head (fun c hc => absurd hc List.not_mem_nil) hrest
  | cons c s ih =>
    rw [List.cons_append, List.takeWhile_cons, List.takeWhile_cons, List.dropWhile_cons,
      List.dropWhile_cons]
    split
    · exact ⟨congrArg (c :: ·) ih.1, ih.2⟩
    · exact ⟨rfl, rfl⟩

/-! ## Numerals -/

namespace Numeral

theorem extent_append_of_blank (hrest : ∀ c ∈ rest.head?, isBlank c = true) (state : State)
    (s : List Char) :
    extent state (s ++ rest) = ((extent state s).1, (extent state s).2 ++ rest) := by
  induction s generalizing state with
  | nil =>
    cases rest with
    | nil => rfl
    | cons c rest => simp only [List.nil_append, extent, next?_of_isBlank (hrest c rfl)]
  | cons c s ih =>
    rw [List.cons_append, extent, extent]
    cases state.next? c with
    | none => rfl
    | some state' => simp only [ih]

theorem base?_append (hrest : ∀ c ∈ rest.head?, isBlank c = true) (s : List Char) :
    base? (s ++ rest) = (base? s).map fun found => (found.1, found.2 ++ rest) := by
  match s with
  | [] =>
    cases rest with
    | nil => rfl
    | cons c rest =>
      have hc : c ≠ '0' := ne_of_isBlank (hrest c rfl) rfl
      simp [base?, hc]
  | [c] =>
    cases rest with
    | nil => simp [base?]
    | cons d rest =>
      by_cases hc : c = '0'
      · subst hc
        simp [base?, radix?_of_isBlank (hrest d rfl)]
      · simp [base?, hc]
  | c :: d :: s =>
    by_cases hc : c = '0'
    · subst hc
      simp [base?, Option.map_map, Function.comp_def]
    · simp [base?, hc]

theorem read_append (hrest : ∀ c ∈ rest.head?, isBlank c = true) {x : Float}
    (h : read s = .ok (x, after)) : read (s ++ rest) = .ok (x, after ++ rest) := by
  have hmap {e : Except Error Float} {t : List Char}
      (he : (e.map fun x => (x, t)) = .ok (x, after)) :
      (e.map fun x => (x, t ++ rest)) = .ok (x, after ++ rest) := by
    cases e with
    | error e => cases he
    | ok y =>
      cases he
      rfl
  unfold read at h ⊢
  rw [base?_append hrest]
  cases hbase : base? s with
  | none =>
    rw [hbase] at h
    simp only [Option.map_none, extent_append_of_blank hrest]
    exact hmap h
  | some found =>
    rw [hbase] at h
    simp only [Option.map_some, extent_append_of_blank hrest]
    exact hmap h

end Numeral

namespace Lexer

/-! ## Single tokens -/

theorem body?_append {quote : Char} (hquote : quote ≠ '\\') {inside : List Char}
    (h : body? quote s = some (inside, after)) (rest : List Char) :
    body? quote (s ++ rest) = some (inside, after ++ rest) := by
  fun_induction body? quote s generalizing inside with
  | case1 c s ih =>
    obtain ⟨⟨inside', after'⟩, hbody, hpair⟩ := Option.map_eq_some_iff.1 h
    cases hpair
    rw [List.cons_append, List.cons_append, body?, ih hbody]
    rfl
  | case2 s =>
    cases h
    rw [List.cons_append, body?_of_ne hquote, if_pos rfl]
  | case3 c s hescape hc ih =>
    obtain ⟨⟨inside', after'⟩, hbody, hpair⟩ := Option.map_eq_some_iff.1 h
    cases hpair
    -- a backslash that takes no character along is the last character
    have hne : c ≠ '\\' := by
      rintro rfl
      cases s with
      | nil => cases hbody
      | cons d s => exact hescape d s rfl rfl
    rw [List.cons_append, body?_of_ne hne, if_neg hc, ih hbody]
    rfl
  | case4 => cases h

theorem quoted_append {quote : Char} (hquote : quote ≠ '\\') {t : Token}
    (h : quoted quote s = .ok (t, after)) (rest : List Char) :
    quoted quote (s ++ rest) = .ok (t, after ++ rest) := by
  unfold quoted at h ⊢
  split at h
  · rename_i inside after' hbody
    rw [body?_append hquote hbody]
    dsimp only
    cases htext : Escapes.unescape inside with
    | error e =>
      rw [htext] at h
      cases h
    | ok text =>
      rw [htext] at h
      cases h
      rfl
  · cases h

section

variable {t : Token} (hrest : ∀ c ∈ rest.head?, isBlank c = true)

include hrest

theorem name_append (h : name s = .ok (t, after)) : name (s ++ rest) = .ok (t, after ++ rest) := by
  cases s with
  | nil => cases h
  | cons c s =>
    obtain ⟨htake, hdrop⟩ := span_append_of_head (c :: s)
      fun d hd => not_continuesName_of_isBlank (hrest d hd)
    rw [List.cons_append] at htake hdrop
    simp only [name, List.cons_append, htake, hdrop] at h ⊢
    split at h
    · rename_i hstart
      cases h
      rw [if_pos hstart]
    · cases h

theorem startsNumeral_append (hs : s ≠ []) : startsNumeral (s ++ rest) = startsNumeral s := by
  obtain ⟨c, s, rfl⟩ := List.exists_cons_of_ne_nil hs
  by_cases hc : c = '.'
  · subst hc
    cases s with
    | nil =>
      cases rest with
      | nil => rfl
      | cons d rest => exact Numeral.not_isDigit_of_isBlank (hrest d rfl)
    | cons d s => rfl
  · rw [List.cons_append, startsNumeral_of_ne hc, startsNumeral_of_ne hc]

/-- What follows a blank does not matter to the first token. -/
theorem next_append (h : next s = .ok (t, after)) : next (s ++ rest) = .ok (t, after ++ rest) := by
  cases s with
  | nil => cases h
  | cons c s =>
    have hnumeral := startsNumeral_append hrest (List.cons_ne_nil c s)
    by_cases hstarts : startsNumeral (c :: s) = true
    · rw [next_of_numeral hstarts] at h
      rw [next_of_numeral (hnumeral.trans hstarts)]
      cases hread : Numeral.read (c :: s) with
      | error e =>
        rw [hread] at h
        cases h
      | ok found =>
        rw [hread] at h
        cases h
        rw [Numeral.read_append hrest hread]
        rfl
    · rw [Bool.not_eq_true] at hstarts
      rw [hstarts] at hnumeral
      by_cases hsingle : c = '\''
      · subst hsingle
        exact quoted_append (by decide) h rest
      by_cases hdouble : c = '"'
      · subst hdouble
        exact quoted_append (by decide) h rest
      rw [next_of_ne hstarts hsingle hdouble] at h
      rw [List.cons_append] at hnumeral ⊢
      rw [next_of_ne hnumeral hsingle hdouble, ← List.cons_append, read?_append hrest]
      cases hread : Mark.read? (c :: s) with
      | none =>
        rw [hread] at h
        exact name_append hrest h
      | some found =>
        rw [hread] at h
        cases h
        rfl

/-! ## All tokens -/

omit hrest in
theorem tokens_append_of_blanks (h : ∀ c ∈ s, isBlank c = true) :
    tokens (s ++ rest) = tokens rest := by
  have hskip : trimStart (s ++ rest) = trimStart rest := List.dropWhile_append_of_pos h
  rw [tokens, hskip]
  conv => rhs; rw [tokens]

/-- A blank separates two texts. -/
theorem tokens_append {ts : List Token} (h : tokens s = .ok ts) :
    tokens (s ++ rest) = (tokens rest).map (ts ++ ·) := by
  induction ts generalizing s with
  | nil =>
    rw [tokens_append_of_blanks (blank_of_tokens_eq_nil h)]
    cases tokens rest <;> rfl
  | cons t ts ih =>
    obtain ⟨before, inner, after, rfl, hbefore, hhead, hnext, hafter⟩ := next_of_tokens h
    have hjoined := next_append hrest hnext
    cases inner with
    | nil => cases hnext
    | cons c inner =>
      rw [List.cons_append] at hjoined
      rw [List.append_assoc, List.cons_append, tokens_of_next hbefore (hhead c rfl) hjoined,
        ih hafter]
      cases tokens rest <;> rfl

end

section

variable {front name back : List Char} {c : Char} {ts us : List Token} (hc : IsNameStart c)
  (hname : ∀ d ∈ name, IsNamePart d) (hhead : ∀ d ∈ back.head?, continuesName d = false)
  (hback : tokens back = .ok us)

include hc hname hhead hback

/-- The tokens of a text that begins with a name. -/
theorem tokens_name_append :
    tokens (c :: (name ++ back)) = .ok (.name (String.ofList (c :: name)) :: us) := by
  have hblank := not_isBlank_of_isNamePart (isNamePart_of_isNameStart hc)
  have hfirst := @tokens_of_next [] _ _ _ _ nofun hblank (next_of_name hc hname hhead)
  rwa [hback] at hfirst

/-- The tokens of a text that a name stands in, behind a blank. -/
theorem tokens_around_name (hfront : tokens front = .ok ts) :
    tokens (front ++ ' ' :: c :: (name ++ back)) =
      .ok (ts ++ .name (String.ofList (c :: name)) :: us) := by
  have hblank : ∀ d ∈ [' '], isBlank d = true := List.forall_mem_singleton.2 rfl
  have hrest : tokens ([' '] ++ c :: (name ++ back)) = _ :=
    (tokens_append_of_blanks hblank).trans (tokens_name_append hc hname hhead hback)
  rw [List.singleton_append] at hrest
  rw [tokens_append (fun d hd => by cases hd; rfl) hfront, hrest]
  rfl

end

end Lexer

end Stencil
