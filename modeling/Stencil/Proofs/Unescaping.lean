import Stencil.Proofs.Number.Digits
import Stencil.Token.Escapes

/-!
# Texts and their spellings

A character of a quoted text may be written as it is or by one of several escapes. However the
characters of a text are written, one after the other, the body stands for the text.

* `IsHexDigit`, `SpellsHex`: numbers in hexadecimal digits of either case, with any leading zeros
* `Spells`: the bodies that spell a text
* `unescapeAfter_step`: what the first step of a body adds
* `unescape_of_spells`: the main statement
-/

namespace Stencil.Escapes

open Stencil.Text

/-! ## Spellings -/

/-- The character is a hexadecimal digit of the value, in either case. -/
def IsHexDigit (c : Char) (d : Nat) : Prop :=
  d < 16 ∧ (c = Nat.digitChar d ∨ c = (Nat.digitChar d).toUpper)

instance (c : Char) (d : Nat) : Decidable (IsHexDigit c d) :=
  inferInstanceAs (Decidable (_ ∧ _))

/-- One or more hexadecimal digits spell the number. -/
inductive SpellsHex : List Char → Nat → Prop
  | digit {c : Char} {d : Nat} : IsHexDigit c d → SpellsHex [c] d
  | snoc {digits : List Char} {c : Char} {n d : Nat} :
      SpellsHex digits n → IsHexDigit c d → SpellsHex (digits ++ [c]) (16 * n + d)

/-- The letters with an escape of their own, and what each of them stands for. -/
def letterEscapes : List (Char × Char) :=
  [('b', '\x08'), ('f', '\x0c'), ('n', '\n'), ('r', '\r'), ('t', '\t'), ('v', '\x0b')]

/-- A backslash before the character means nothing: it is no letter with an escape, and no digit. -/
def StandsForItself (c : Char) : Prop :=
  c ∉ ['b', 'f', 'n', 'r', 't', 'v', 'x', 'u'] ∧ c.isDigit = false

instance (c : Char) : Decidable (StandsForItself c) :=
  inferInstanceAs (Decidable (_ ∧ _))

/-- The body, the second list, spells the characters of the text one after the other. -/
inductive Spells : List Char → List Char → Prop
  | nil : Spells [] []
  | raw {c : Char} {s body : List Char} : c ≠ '\\' → Spells s body → Spells (c :: s) (c :: body)
  | letter {l c : Char} {s body : List Char} :
      (l, c) ∈ letterEscapes → Spells s body → Spells (c :: s) ('\\' :: l :: body)
  /-- A digit after the zero would make it an octal escape. -/
  | zero {s body : List Char} :
      (∀ d ∈ body.head?, d.isDigit = false) → Spells s body →
      Spells ('\x00' :: s) ('\\' :: '0' :: body)
  | two {c : Char} {digits s body : List Char} :
      SpellsHex digits c.toNat → digits.length = 2 → Spells s body →
      Spells (c :: s) ('\\' :: 'x' :: (digits ++ body))
  | four {c : Char} {digits s body : List Char} :
      SpellsHex digits c.toNat → digits.length = 4 → Spells s body →
      Spells (c :: s) ('\\' :: 'u' :: (digits ++ body))
  /-- The two UTF-16 units of a character beyond the basic plane. -/
  | pair {c : Char} {high low : Nat} {digits digits' s body : List Char} :
      units c = [high, low] → SpellsHex digits high → digits.length = 4 →
      SpellsHex digits' low → digits'.length = 4 → Spells s body →
      Spells (c :: s) ('\\' :: 'u' :: (digits ++ '\\' :: 'u' :: (digits' ++ body)))
  | braced {c : Char} {digits s body : List Char} :
      SpellsHex digits c.toNat → Spells s body →
      Spells (c :: s) ('\\' :: 'u' :: '\x7b' :: (digits ++ '\x7d' :: body))
  | itself {c : Char} {s body : List Char} :
      StandsForItself c → Spells s body → Spells (c :: s) ('\\' :: c :: body)

/-! ## Hexadecimal numbers -/

theorem ne_brace_of_isHexDigit {c : Char} {d : Nat} (h : IsHexDigit c d) :
    c ≠ '\x7b' ∧ c ≠ '\x7d' := by
  have hall : ∀ d < 16, Nat.digitChar d ≠ '\x7b' ∧ Nat.digitChar d ≠ '\x7d' ∧
      (Nat.digitChar d).toUpper ≠ '\x7b' ∧ (Nat.digitChar d).toUpper ≠ '\x7d' := by
    decide
  obtain ⟨hd, rfl | rfl⟩ := h
  · exact ⟨(hall d hd).1, (hall d hd).2.1⟩
  · exact (hall d hd).2.2

theorem SpellsHex.ne_nil {digits : List Char} {n : Nat} (h : SpellsHex digits n) :
    digits ≠ [] := by
  cases h <;> simp

theorem SpellsHex.ne_brace {digits : List Char} {n : Nat} (h : SpellsHex digits n) :
    ∀ c ∈ digits, c ≠ '\x7b' ∧ c ≠ '\x7d' := by
  induction h with
  | digit hc =>
    intro c hmem
    rw [List.mem_singleton.1 hmem]
    exact ne_brace_of_isHexDigit hc
  | snoc _ hc ih =>
    intro c hmem
    rcases List.mem_append.1 hmem with hmem | hmem
    · exact ih c hmem
    · rw [List.mem_singleton.1 hmem]
      exact ne_brace_of_isHexDigit hc

theorem SpellsHex.spellsIn {digits : List Char} {n : Nat} (h : SpellsHex digits n) :
    Number.SpellsIn 16 digits n := by
  induction h with
  | digit hc => exact .digit hc
  | snoc _ hc ih => exact .snoc ih hc

theorem spellsHex_of_spellsIn {digits : List Char} {n : Nat} (h : Number.SpellsIn 16 digits n) :
    SpellsHex digits n := by
  induction h with
  | digit hc => exact .digit hc
  | snoc _ hc ih => exact .snoc ih hc

/-- Digits spell the number that is read from them, and nothing else. -/
theorem spellsHex_iff {digits : List Char} {n : Nat} :
    SpellsHex digits n ↔ Number.wholeNumber? 16 digits = some n :=
  ⟨fun h => (Number.spellsIn_iff (Nat.le_refl 16)).1 h.spellsIn,
    fun h => spellsHex_of_spellsIn ((Number.spellsIn_iff (Nat.le_refl 16)).2 h)⟩

/-! ## Single steps -/

/-- The first step of a body adds its characters to what the rest stands for. -/
theorem unescapeAfter_step {waiting waiting' : Option Nat} {s rest chars : List Char}
    {piece : Piece} (hstep : step s = .ok (piece, rest))
    (hpush : push waiting piece = .ok (chars, waiting')) :
    unescapeAfter waiting s = (unescapeAfter waiting' rest).map (chars ++ ·) := by
  have hne : s.isEmpty = false := by
    cases s with
    | nil => cases hstep
    | cons c s => rfl
  rw [unescapeAfter, if_neg (by simp [hne])]
  split <;> rename_i heq <;> rw [hstep] at heq <;> cases heq
  simp only [hpush]

/-- A step that stands for one whole character. -/
theorem unescape_of_step {c : Char} {s rest text : List Char} {piece : Piece}
    (hstep : step s = .ok (piece, rest)) (hpush : push none piece = .ok ([c], none))
    (h : unescape rest = .ok text) : unescape s = .ok (c :: text) := by
  rw [unescape] at h ⊢
  rw [unescapeAfter_step hstep hpush, h]
  rfl

theorem charOf?_toNat (c : Char) : charOf? c.toNat = some c := by
  rw [charOf?, if_pos (show c.toNat.isValidChar from c.valid), Char.ofNat_toNat]

/-- A character of the basic plane is one unit, and no half of a pair. -/
theorem push_toNat (c : Char) : push none (.unit c.toNat) = .ok ([c], none) := by
  have hvalid : c.toNat < 0xD800 ∨ 0xDFFF < c.toNat ∧ c.toNat < 0x110000 := c.valid
  have hhigh : isHigh c.toNat = false := by
    simp only [isHigh, Bool.and_eq_false_iff, decide_eq_false_iff_not]
    omega
  have hlow : isLow c.toNat = false := by
    simp only [isLow, Bool.and_eq_false_iff, decide_eq_false_iff_not]
    omega
  simp [push, hhigh, hlow]

/-- The units of a character beyond the basic plane are a high and a low surrogate, and stand for it
together. -/
theorem pair_of_units {c : Char} {high low : Nat} (h : units c = [high, low]) :
    isHigh high = true ∧ isLow low = true ∧ ofPair high low = c := by
  have hvalid : c.toNat < 0xD800 ∨ 0xDFFF < c.toNat ∧ c.toNat < 0x110000 := c.valid
  unfold units at h
  split at h
  · cases h
  · simp only [List.cons.injEq, and_true] at h
    obtain ⟨rfl, rfl⟩ := h
    refine ⟨?_, ?_, ?_⟩
    · simp only [isHigh, Bool.and_eq_true, decide_eq_true_eq]
      omega
    · simp only [isLow, Bool.and_eq_true, decide_eq_true_eq]
      omega
    · have hsum : 0x10000 + (0xD800 + (c.toNat - 0x10000) / 0x400 - 0xD800) * 0x400 +
          (0xDC00 + (c.toNat - 0x10000) % 0x400 - 0xDC00) = c.toNat := by
        omega
      rw [ofPair, hsum, Char.ofNat_toNat]

theorem fixedUnit_append {digits : List Char} {n count : Nat} (h : SpellsHex digits n)
    (hlength : digits.length = count) (rest : List Char) :
    fixedUnit count (digits ++ rest) = .ok (.unit n, rest) := by
  have hle : ¬ (digits ++ rest).length < count := by
    rw [List.length_append]
    omega
  rw [fixedUnit, if_neg hle, ← hlength, List.take_left, List.drop_left, spellsHex_iff.1 h]

/-- The digits in braces end at the closing brace, or at the end of the body. -/
theorem bracedChar_of_head {digits rest : List Char} {c : Char} (h : SpellsHex digits c.toNat)
    (hrest : ∀ d ∈ rest.head?, d = '\x7d') :
    bracedChar (digits ++ rest) = .ok (.char c, rest.drop 1) := by
  have hdigits : ∀ d ∈ digits, (d != '\x7d') = true :=
    fun d hd => bne_iff_ne.2 (h.ne_brace d hd).2
  have hend : ∀ d ∈ rest.head?, (d != '\x7d') = false :=
    fun d hd => bne_eq_false_iff_eq.2 (hrest d hd)
  obtain ⟨htake, hdrop⟩ := Number.takeWhile_append_of_head hdigits hend
  rw [bracedChar, htake, hdrop, spellsHex_iff.1 h, Option.bind_some, charOf?_toNat]

theorem bracedChar_append {digits : List Char} {c : Char} (h : SpellsHex digits c.toNat)
    (rest : List Char) : bracedChar (digits ++ '\x7d' :: rest) = .ok (.char c, rest) :=
  bracedChar_of_head h fun d hd => by cases hd; rfl

/-! ## Escapes -/

theorem escaped_of_letter {l c : Char} (h : (l, c) ∈ letterEscapes) (rest : List Char) :
    escaped (l :: rest) = .ok (.char c, rest) := by
  simp only [letterEscapes, List.mem_cons, Prod.mk.injEq, List.not_mem_nil, or_false] at h
  rcases h with ⟨rfl, rfl⟩ | ⟨rfl, rfl⟩ | ⟨rfl, rfl⟩ | ⟨rfl, rfl⟩ | ⟨rfl, rfl⟩ | ⟨rfl, rfl⟩ <;> rfl

theorem escaped_zero {rest : List Char} (h : ∀ d ∈ rest.head?, d.isDigit = false) :
    escaped ('0' :: rest) = .ok (.char '\x00', rest) := by
  have hany : rest.head?.any Number.isDigit = false := by
    cases hhead : rest.head? with
    | none => rfl
    | some d => exact h d hhead
  simp [escaped, hany]

theorem escaped_four {digits : List Char} {n : Nat} (h : SpellsHex digits n)
    (hlength : digits.length = 4) (rest : List Char) :
    escaped ('u' :: (digits ++ rest)) = .ok (.unit n, rest) := by
  cases digits with
  | nil => exact absurd rfl h.ne_nil
  | cons d digits =>
    have hd : d ≠ '\x7b' := (h.ne_brace d List.mem_cons_self).1
    have hfixed := fixedUnit_append h hlength rest
    rw [List.cons_append] at hfixed ⊢
    rw [escaped, hfixed]
    exact fun rest heq => hd (List.cons.inj heq).1

theorem escaped_itself {c : Char} (h : StandsForItself c) (rest : List Char) :
    escaped (c :: rest) = .ok (.char c, rest) := by
  obtain ⟨hletter, hdigit⟩ := h
  simp only [List.mem_cons, List.not_mem_nil, or_false, not_or] at hletter
  obtain ⟨hb, hf, hn, hr, ht, hv, hx, hu⟩ := hletter
  have hzero : c ≠ '0' := by
    rintro rfl
    cases hdigit
  have hnone : letterEscape? c = none := by
    unfold letterEscape?
    split <;> simp_all
  rw [escaped]
  · simp [hzero, Number.isDigit_eq, hdigit, hnone]
  · exact hx
  · rintro rest rfl
    exact absurd rfl hu
  · exact hu

/-! ## Whole bodies -/

/-- **Unescaping undoes every spelling.** However the characters of a text are spelled, the body
stands for the text. -/
theorem unescape_of_spells {s body : List Char} (h : Spells s body) :
    unescape body = .ok s := by
  induction h with
  | nil =>
    rw [unescape, unescapeAfter]
    rfl
  | raw hc _ ih => exact unescape_of_step (step_of_ne hc _) rfl ih
  | letter hl _ ih => exact unescape_of_step (escaped_of_letter hl _) rfl ih
  | zero hdigit _ ih => exact unescape_of_step (escaped_zero hdigit) rfl ih
  | two hdigits hlength _ ih =>
    exact unescape_of_step (fixedUnit_append hdigits hlength _) (push_toNat _) ih
  | four hdigits hlength _ ih =>
    exact unescape_of_step (escaped_four hdigits hlength _) (push_toNat _) ih
  | @pair c high low digits digits' s body hunits hdigits hlength hdigits' hlength' _ ih =>
    -- The high surrogate waits, and the low one completes the character.
    obtain ⟨hhigh, hlow, hpair⟩ := pair_of_units hunits
    have hfirst : step ('\\' :: 'u' :: (digits ++ '\\' :: 'u' :: (digits' ++ body))) =
        .ok (.unit high, '\\' :: 'u' :: (digits' ++ body)) := escaped_four hdigits hlength _
    have hsecond : step ('\\' :: 'u' :: (digits' ++ body)) = .ok (.unit low, body) :=
      escaped_four hdigits' hlength' body
    have hwait : push none (.unit high) = .ok ([], some high) := by simp [push, hhigh]
    have hcomplete : push (some high) (.unit low) = .ok ([c], none) := by
      simp [push, hhigh, hlow, hpair]
    rw [unescape] at ih ⊢
    rw [unescapeAfter_step hfirst hwait, unescapeAfter_step hsecond hcomplete, ih]
    rfl
  | braced hdigits _ ih => exact unescape_of_step (bracedChar_append hdigits _) rfl ih
  | itself hc _ ih => exact unescape_of_step (escaped_itself hc _) rfl ih

/-- The body `\u{0001f389}\0\ud83C\udf89\n\xE9\/z` spells one character by its code point and by its
units, with NUL between them. -/
theorem unescape_of_spells_mixed :
    let text := ['🎉', '\x00', '🎉', '\n', 'é', '/', 'z']
    let body :=
      ['\\', 'u', '\x7b', '0', '0', '0', '1', 'f', '3', '8', '9', '\x7d', '\\', '0', '\\', 'u', 'd',
        '8', '3', 'C', '\\', 'u', 'd', 'f', '8', '9', '\\', 'n', '\\', 'x', 'E', '9', '\\', '/',
        'z']
    Spells text body ∧ unescape body = .ok text := by
  intro text body
  have hcode : SpellsHex ['0', '0', '0', '1', 'f', '3', '8', '9'] '🎉'.toNat :=
    spellsHex_iff.2 (by decide)
  have hhigh : SpellsHex ['d', '8', '3', 'C'] 0xD83C := spellsHex_iff.2 (by decide)
  have hlow : SpellsHex ['d', 'f', '8', '9'] 0xDF89 := spellsHex_iff.2 (by decide)
  have hbyte : SpellsHex ['E', '9'] 'é'.toNat := spellsHex_iff.2 (by decide)
  have hend : Spells ['\n', 'é', '/', 'z'] ['\\', 'n', '\\', 'x', 'E', '9', '\\', '/', 'z'] :=
    .letter (by decide) (.two hbyte rfl (.itself (by decide) (.raw (by decide) .nil)))
  have hspells : Spells text body :=
    .braced hcode (.zero (fun d hd => by cases hd; rfl) (.pair rfl hhigh rfl hlow rfl hend))
  exact ⟨hspells, unescape_of_spells hspells⟩

end Stencil.Escapes
