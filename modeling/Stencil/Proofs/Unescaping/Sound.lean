import Mathlib.Data.List.TakeWhile
import Stencil.Proofs.Rejecting
import Stencil.Proofs.Text.Units
import Stencil.Proofs.Unescaping

/-!
# Bodies that stand for a text

A body that stands for a text spells it: it is cut into characters that are written as they are and
complete escapes, and nothing else is let through. There is one exception. The brace that closes an
escape by code point may be missing at the very end of the body.

* `Steps`: what the first step of a body may look like
* `Reads`: the first one or two steps that stand for one character
* `SpellsOpen`: the bodies whose last escape lacks its closing brace
* `unescape_eq_ok_iff_spells`: the main statement
-/

namespace Stencil.Escapes

open Stencil.Text

/-! ## Single steps -/

/-- The first step of a body, the first list, stands for the piece, and the second list follows. -/
inductive Steps : Piece → List Char → List Char → Prop
  | raw {c : Char} {rest : List Char} : c ≠ '\\' → Steps (.char c) (c :: rest) rest
  | letter {l c : Char} {rest : List Char} :
      (l, c) ∈ letterEscapes → Steps (.char c) ('\\' :: l :: rest) rest
  | zero {rest : List Char} :
      (∀ d ∈ rest.head?, d.isDigit = false) → Steps (.char '\x00') ('\\' :: '0' :: rest) rest
  | two {u : Nat} {digits rest : List Char} :
      SpellsHex digits u → digits.length = 2 →
      Steps (.unit u) ('\\' :: 'x' :: (digits ++ rest)) rest
  | four {u : Nat} {digits rest : List Char} :
      SpellsHex digits u → digits.length = 4 →
      Steps (.unit u) ('\\' :: 'u' :: (digits ++ rest)) rest
  | braced {c : Char} {digits rest : List Char} :
      SpellsHex digits c.toNat →
      Steps (.char c) ('\\' :: 'u' :: '\x7b' :: (digits ++ '\x7d' :: rest)) rest
  /-- The body ends before the brace is closed. -/
  | unclosed {c : Char} {digits : List Char} :
      SpellsHex digits c.toNat → Steps (.char c) ('\\' :: 'u' :: '\x7b' :: digits) []
  | itself {c : Char} {rest : List Char} :
      StandsForItself c → Steps (.char c) ('\\' :: c :: rest) rest

theorem toNat_of_charOf? {n : Nat} {c : Char} (h : charOf? n = some c) : c.toNat = n := by
  unfold charOf? at h
  split at h
  · rename_i hvalid
    cases h
    rw [Char.ofNat, dif_pos hvalid]
    rfl
  · cases h

theorem fixedUnit_eq_ok {count : Nat} {s rest : List Char} {piece : Piece}
    (h : fixedUnit count s = .ok (piece, rest)) :
    ∃ digits u, s = digits ++ rest ∧ digits.length = count ∧ SpellsHex digits u ∧
      piece = .unit u := by
  unfold fixedUnit at h
  split at h
  · cases h
  · rename_i hlength
    split at h
    · rename_i u hu
      cases h
      refine ⟨s.take count, u, (List.take_append_drop ..).symm, ?_, spellsHex_iff.2 hu, rfl⟩
      rw [List.length_take]
      omega
    · cases h

theorem bracedChar_eq_ok {s rest : List Char} {piece : Piece}
    (h : bracedChar s = .ok (piece, rest)) :
    ∃ digits c, SpellsHex digits c.toNat ∧ piece = .char c ∧
      (s = digits ++ '\x7d' :: rest ∨ s = digits ∧ rest = []) := by
  unfold bracedChar at h
  split at h
  · rename_i c hc
    cases h
    obtain ⟨n, hn, hc⟩ := Option.bind_eq_some_iff.1 hc
    rw [← toNat_of_charOf? hc] at hn
    refine ⟨_, c, spellsHex_iff.2 hn, rfl, ?_⟩
    have hsplit := List.takeWhile_append_dropWhile (p := (· != '\x7d')) (l := s)
    cases hdrop : s.dropWhile (· != '\x7d') with
    | nil =>
      rw [hdrop, List.append_nil] at hsplit
      exact .inr ⟨hsplit.symm, rfl⟩
    | cons d after =>
      have hne : s.dropWhile (· != '\x7d') ≠ [] := by simp [hdrop]
      have hd := List.head_dropWhile_not (· != '\x7d') hne
      simp only [hdrop, List.head_cons, bne_eq_false_iff_eq] at hd
      rw [hdrop, hd] at hsplit
      exact .inl hsplit.symm
  · cases h

/-- A letter without an escape of its own that is no digit stands for itself. -/
theorem standsForItself_of_letterEscape? {c : Char} (hletter : letterEscape? c = none)
    (hdigit : Number.isDigit c = false) (hx : c ≠ 'x') (hu : c ≠ 'u') : StandsForItself c := by
  refine ⟨?_, hdigit⟩
  simp only [List.mem_cons, List.not_mem_nil, or_false, not_or]
  refine ⟨?_, ?_, ?_, ?_, ?_, ?_, hx, hu⟩ <;> rintro rfl <;> cases hletter

theorem mem_letterEscapes {l c : Char} (h : letterEscape? l = some c) :
    (l, c) ∈ letterEscapes := by
  unfold letterEscape? at h
  split at h <;> cases h <;> decide

theorem steps_of_escaped {s rest : List Char} {piece : Piece}
    (h : escaped s = .ok (piece, rest)) : Steps piece ('\\' :: s) rest := by
  unfold escaped at h
  split at h
  · cases h
  · obtain ⟨digits, u, rfl, hlength, hdigits, rfl⟩ := fixedUnit_eq_ok h
    exact .two hdigits hlength
  · obtain ⟨digits, c, hdigits, rfl, rfl | ⟨rfl, rfl⟩⟩ := bracedChar_eq_ok h
    · exact .braced hdigits
    · exact .unclosed hdigits
  · obtain ⟨digits, u, rfl, hlength, hdigits, rfl⟩ := fixedUnit_eq_ok h
    exact .four hdigits hlength
  · rename_i c after hx _ hu
    split at h
    · rename_i hzero
      cases h
      obtain ⟨rfl, hhead⟩ := hzero
      refine .zero fun d hd => ?_
      simpa [Option.mem_def.1 hd, Number.isDigit_eq] using hhead
    · split at h
      · cases h
      · rename_i hdigit
        cases h
        cases hletter : letterEscape? c with
        | none =>
          exact .itself (standsForItself_of_letterEscape? hletter (by simpa using hdigit) hx hu)
        | some d => exact .letter (mem_letterEscapes hletter)

theorem steps_of_step {s rest : List Char} {piece : Piece} (h : step s = .ok (piece, rest)) :
    Steps piece s rest := by
  unfold step at h
  split at h
  · exact steps_of_escaped h
  · rename_i c after hc
    cases h
    exact .raw hc
  · cases h

/-! ## Characters -/

/-- The beginning of a body, the first list, stands for the character, in one step or by the two
surrogates that make it up, and the second list follows. -/
inductive Reads (c : Char) (body rest : List Char) : Prop
  | char : step body = .ok (.char c, rest) → Reads c body rest
  | unit : step body = .ok (.unit c.toNat, rest) → Reads c body rest
  | pair {high low : Nat} {between : List Char} :
      units c = [high, low] → step body = .ok (.unit high, between) →
      step between = .ok (.unit low, rest) → Reads c body rest

theorem unescape_nil : unescape [] = .ok [] := by
  rw [unescape, unescapeAfter]
  rfl

theorem Reads.length_lt {c : Char} {body rest : List Char} (h : Reads c body rest) :
    rest.length < body.length := by
  cases h with
  | char hstep => exact length_of_step hstep
  | unit hstep => exact length_of_step hstep
  | pair _ hfirst hsecond => exact Nat.lt_trans (length_of_step hsecond) (length_of_step hfirst)

theorem unescape_of_reads {c : Char} {body rest : List Char} (h : Reads c body rest) :
    unescape body = (unescape rest).map (c :: ·) := by
  cases h with
  | char hstep =>
    have hpush : push none (.char c) = .ok ([c], none) := rfl
    exact unescapeAfter_step hstep hpush
  | unit hstep => exact unescapeAfter_step hstep (push_toNat c)
  | @pair high low between hunits hfirst hsecond =>
    obtain ⟨hhigh, hlow, hpair⟩ := pair_of_units hunits
    have hwait : push none (.unit high) = .ok ([], some high) := by simp [push, hhigh]
    have hcomplete : push (some high) (.unit low) = .ok ([c], none) := by
      simp [push, hhigh, hlow, hpair]
    rw [unescape, unescapeAfter_step hfirst hwait, unescapeAfter_step hsecond hcomplete]
    cases h : unescapeAfter none rest <;> simp [unescape, h, Except.map]

/-- The first steps of a body that stands for a text. -/
theorem unescapeAfter_eq_ok {waiting : Option Nat} {body t : List Char}
    (h : unescapeAfter waiting body = .ok t) :
    body = [] ∧ waiting = none ∧ t = [] ∨
      ∃ piece rest chars waiting' t', step body = .ok (piece, rest) ∧
        push waiting piece = .ok (chars, waiting') ∧ unescapeAfter waiting' rest = .ok t' ∧
        t = chars ++ t' := by
  rw [unescapeAfter] at h
  split at h
  · rename_i hempty
    split at h
    · rename_i hnone
      cases h
      exact .inl ⟨List.isEmpty_iff.1 hempty, Option.isNone_iff_eq_none.1 hnone, rfl⟩
    · cases h
  · split at h
    · cases h
    · rename_i piece rest hstep
      split at h
      · cases h
      · rename_i chars waiting' hpush
        cases hrest : unescapeAfter waiting' rest with
        | error e => rw [hrest] at h; cases h
        | ok t' =>
          rw [hrest] at h
          cases h
          exact .inr ⟨piece, rest, chars, waiting', t', hstep, hpush, hrest, rfl⟩

theorem SpellsHex.lt {digits : List Char} {n : Nat} (h : SpellsHex digits n) :
    n < Nat.pow 16 digits.length := by
  induction h with
  | digit hc => exact hc.1
  | @snoc digits c n d _ hc ih =>
    have hd := hc.1
    rw [List.length_append, List.length_singleton, Nat.pow_eq, Nat.pow_succ, ← Nat.pow_eq]
    omega

/-- A unit that a step stands for is below `16 ^ 4`. -/
theorem Steps.unit_lt {u : Nat} {body rest : List Char} (h : Steps (.unit u) body rest) :
    u < 0x10000 := by
  cases h with
  | two hdigits hlength =>
    have hlt := hdigits.lt
    rw [hlength] at hlt
    exact Nat.lt_trans hlt (by decide)
  | four hdigits hlength =>
    have hlt := hdigits.lt
    rwa [hlength] at hlt

/-- The first character of a body that stands for a text. -/
theorem reads_of_unescape {body t : List Char} (h : unescape body = .ok t) :
    body = [] ∧ t = [] ∨
      ∃ c rest t', Reads c body rest ∧ unescape rest = .ok t' ∧ t = c :: t' := by
  rcases unescapeAfter_eq_ok h with ⟨rfl, -, rfl⟩ |
    ⟨piece, rest, chars, waiting, t', hstep, hpush, hrest, rfl⟩
  · exact .inl ⟨rfl, rfl⟩
  refine .inr ?_
  cases piece with
  | char c =>
    cases hpush
    exact ⟨c, rest, t', .char hstep, hrest, rfl⟩
  | unit u =>
    by_cases hsurrogate : (isHigh u || isLow u) = true
    · -- It waits for the low surrogate, which has to be the next step.
      simp only [push, hsurrogate, if_true, Except.ok.injEq, Prod.mk.injEq] at hpush
      obtain ⟨rfl, rfl⟩ := hpush
      rcases unescapeAfter_eq_ok hrest with ⟨-, hnone, -⟩ |
        ⟨piece, rest', chars, waiting, t'', hsecond, hpush, hrest', rfl⟩
      · cases hnone
      cases piece with
      | char c => cases hpush
      | unit low =>
        simp only [push] at hpush
        split at hpush
        · rename_i hpair
          cases hpush
          obtain ⟨hhigh, hlow⟩ := Bool.and_eq_true_iff.1 hpair
          exact ⟨_, rest', t'', .pair (units_ofPair hhigh hlow) hstep hsecond, hrest', rfl⟩
        · cases hpush
    · simp only [push, hsurrogate, Bool.false_eq_true, if_false, Except.ok.injEq,
        Prod.mk.injEq] at hpush
      obtain ⟨rfl, rfl⟩ := hpush
      rw [Bool.not_eq_true, Bool.or_eq_false_iff] at hsurrogate
      have hlt := (steps_of_step hstep).unit_lt
      have hcode := toNat_ofNat_of_not_surrogate hlt hsurrogate.1 hsurrogate.2
      exact ⟨Char.ofNat u, rest, t', .unit (by rw [hcode, hstep]), hrest, rfl⟩

/-! ## Spellings -/

/-- The characters before the rest spell the character, before any beginning of the rest that spells
something. -/
def Leads (c : Char) (front rest : List Char) : Prop :=
  ∀ s before, before <+: rest → Spells s before → Spells (c :: s) (front ++ before)

/-- A character that is read is spelled, or the body ends in the middle of its escape. -/
theorem leads_of_reads {c : Char} {body rest : List Char} (h : Reads c body rest) :
    (∃ front, body = front ++ rest ∧ Leads c front rest) ∨
      rest = [] ∧ ∃ digits, SpellsHex digits c.toNat ∧
        body = '\\' :: 'u' :: '\x7b' :: digits := by
  cases h with
  | char hstep =>
    cases steps_of_step hstep with
    | raw hc => exact .inl ⟨[c], rfl, fun s before _ hs => .raw hc hs⟩
    | @letter l _ _ hl => exact .inl ⟨['\\', l], rfl, fun s before _ hs => .letter hl hs⟩
    | zero hhead =>
      refine .inl ⟨['\\', '0'], rfl, fun s before hprefix hs => ?_⟩
      refine .zero (fun d hd => hhead d ?_) hs
      obtain ⟨after, rfl⟩ := hprefix
      cases before with
      | nil => cases hd
      | cons e before => exact hd
    | @braced _ digits _ hdigits =>
      refine .inl ⟨'\\' :: 'u' :: '\x7b' :: (digits ++ ['\x7d']), by simp, ?_⟩
      intro s before _ hs
      simpa using Spells.braced hdigits hs
    | unclosed hdigits => exact .inr ⟨rfl, _, hdigits, rfl⟩
    | itself hc => exact .inl ⟨['\\', c], rfl, fun s before _ hs => .itself hc hs⟩
  | unit hstep =>
    cases steps_of_step hstep with
    | @two _ digits _ hdigits hlength =>
      exact .inl ⟨'\\' :: 'x' :: digits, rfl, fun s before _ hs => .two hdigits hlength hs⟩
    | @four _ digits _ hdigits hlength =>
      exact .inl ⟨'\\' :: 'u' :: digits, rfl, fun s before _ hs => .four hdigits hlength hs⟩
  | @pair high low between hunits hfirst hsecond =>
    obtain ⟨hhigh, hlow, -⟩ := pair_of_units hunits
    simp only [isHigh, isLow, Bool.and_eq_true, decide_eq_true_eq] at hhigh hlow
    -- Two digits are too few for a surrogate.
    have hfour {u : Nat} {body rest : List Char} (hu : 0xD800 ≤ u)
        (h : Steps (.unit u) body rest) :
        ∃ digits, SpellsHex digits u ∧ digits.length = 4 ∧
          body = '\\' :: 'u' :: (digits ++ rest) := by
      cases h with
      | two hdigits hlength =>
        have hlt := hdigits.lt
        rw [hlength] at hlt
        exact absurd (Nat.lt_of_lt_of_le hlt (by decide)) (Nat.not_lt.2 hu)
      | four hdigits hlength => exact ⟨_, hdigits, hlength, rfl⟩
    obtain ⟨digits, hdigits, hlength, rfl⟩ := hfour (by omega) (steps_of_step hfirst)
    obtain ⟨digits', hdigits', hlength', rfl⟩ := hfour (by omega) (steps_of_step hsecond)
    refine .inl ⟨'\\' :: 'u' :: (digits ++ '\\' :: 'u' :: digits'), by simp, ?_⟩
    intro s before _ hs
    simpa using Spells.pair hunits hdigits hlength hdigits' hlength' hs

/-- The body spells the text but for the brace that closes its last escape. -/
def SpellsOpen (s body : List Char) : Prop :=
  ∃ front before c digits, s = front ++ [c] ∧
    body = before ++ '\\' :: 'u' :: '\x7b' :: digits ∧ Spells front before ∧
    SpellsHex digits c.toNat

theorem Leads.spellsOpen {c : Char} {front rest s : List Char} (h : Leads c front rest)
    (hs : SpellsOpen s rest) : SpellsOpen (c :: s) (front ++ rest) := by
  obtain ⟨s, before, d, digits, rfl, rfl, hspells, hdigits⟩ := hs
  exact ⟨c :: s, front ++ before, d, digits, rfl, (List.append_assoc ..).symm,
    h s before (List.prefix_append ..) hspells, hdigits⟩

/-- A body that stands for a text spells it, or would if its last escape were closed. -/
theorem spells_of_unescape {body s : List Char} (h : unescape body = .ok s) :
    Spells s body ∨ SpellsOpen s body := by
  induction hlength : body.length using Nat.strongRecOn generalizing body s with
  | ind n ih =>
    rcases reads_of_unescape h with ⟨rfl, rfl⟩ | ⟨c, rest, t, hreads, hrest, rfl⟩
    · exact .inl .nil
    rcases leads_of_reads hreads with ⟨front, rfl, hleads⟩ | ⟨rfl, digits, hdigits, rfl⟩
    · have hlt := hreads.length_lt
      rcases ih rest.length (by omega) hrest rfl with hspells | hopen
      · exact .inl (hleads t rest (List.prefix_refl rest) hspells)
      · exact .inr (hleads.spellsOpen hopen)
    · rw [unescape_nil] at hrest
      cases hrest
      exact .inr ⟨[], [], c, digits, rfl, rfl, .nil, hdigits⟩

/-- A body that spells a text adds it to what the rest stands for. -/
theorem unescape_append {s body : List Char} (h : Spells s body) {rest : List Char}
    (hhead : ∀ d ∈ rest.head?, d.isDigit = false) :
    unescape (body ++ rest) = (unescape rest).map (s ++ ·) := by
  have hreads {c : Char} {s body after : List Char} (h : Reads c body after)
      (hafter : unescape after = (unescape rest).map (s ++ ·)) :
      unescape body = (unescape rest).map (c :: s ++ ·) := by
    rw [unescape_of_reads h, hafter]
    cases unescape rest <;> rfl
  induction h with
  | nil => cases h : unescape rest <;> simp [h, Except.map]
  | raw hc _ ih => exact hreads (.char (step_of_ne hc _)) ih
  | letter hl _ ih => exact hreads (.char (escaped_of_letter hl _)) ih
  | @zero s body hdigit _ ih =>
    refine hreads (.char (escaped_zero fun d hd => ?_)) ih
    cases body with
    | nil => exact hhead d hd
    | cons c body => exact hdigit d hd
  | two hdigits hlength _ ih =>
    refine hreads (.unit ?_) ih
    rw [List.cons_append, List.cons_append, List.append_assoc]
    exact fixedUnit_append hdigits hlength _
  | four hdigits hlength _ ih =>
    refine hreads (.unit ?_) ih
    rw [List.cons_append, List.cons_append, List.append_assoc]
    exact escaped_four hdigits hlength _
  | @pair c high low digits digits' s body hunits hdigits hlength hdigits' hlength' _ ih =>
    have hfirst : step ('\\' :: 'u' :: (digits ++ '\\' :: 'u' :: (digits' ++ (body ++ rest)))) =
        .ok (.unit high, '\\' :: 'u' :: (digits' ++ (body ++ rest))) :=
      escaped_four hdigits hlength _
    have hsecond : step ('\\' :: 'u' :: (digits' ++ (body ++ rest))) =
        .ok (.unit low, body ++ rest) := escaped_four hdigits' hlength' _
    refine hreads (.pair hunits ?_ hsecond) ih
    simpa using hfirst
  | @braced c digits s body hdigits _ ih =>
    have hstep : step ('\\' :: 'u' :: '\x7b' :: (digits ++ '\x7d' :: (body ++ rest))) =
        .ok (.char c, body ++ rest) := bracedChar_append hdigits _
    refine hreads (.char ?_) ih
    simpa using hstep
  | itself hc _ ih => exact hreads (.char (escaped_itself hc _)) ih

/-- A body is read although its last escape is not closed. -/
theorem unescape_of_spellsOpen {s body : List Char} (h : SpellsOpen s body) :
    unescape body = .ok s := by
  obtain ⟨front, before, c, digits, rfl, rfl, hspells, hdigits⟩ := h
  have hbraced : bracedChar digits = .ok (.char c, []) := by
    have hend : bracedChar (digits ++ []) = .ok (.char c, []) :=
      bracedChar_of_head hdigits fun d hd => absurd hd (Option.not_mem_none d)
    rwa [List.append_nil] at hend
  have hstep : step ('\\' :: 'u' :: '\x7b' :: digits) = .ok (.char c, []) := hbraced
  rw [unescape_append hspells (fun d hd => by cases hd; rfl), unescape_of_reads (.char hstep),
    unescape_nil]
  rfl

/-- A body whose last escape is not closed has no spelling: a letter after it would be taken for a
digit, and so the body would stand for nothing. -/
theorem SpellsOpen.not_spells {s t body : List Char} (h : SpellsOpen s body) :
    ¬ Spells t body := by
  intro hspells
  obtain ⟨front, before, c, digits, rfl, rfl, hbefore, hdigits⟩ := h
  have hbad : Number.wholeNumber? 16 (digits ++ ['g']) = none := by
    have hg : Number.digitValue? 16 'g' = none := by decide
    simp [Number.wholeNumber?, hg]
  have herror : unescape ('\\' :: 'u' :: '\x7b' :: (digits ++ ['g'])) = .error .escape := by
    have hne : ∀ d ∈ digits ++ ['g'], (d != '\x7d') = true := by
      intro d hd
      rcases List.mem_append.1 hd with hd | hd
      · exact bne_iff_ne.2 (hdigits.ne_brace d hd).2
      · rw [List.mem_singleton.1 hd]
        decide
    have hstep : step ('\\' :: 'u' :: '\x7b' :: (digits ++ ['g'])) = .error .escape := by
      change bracedChar (digits ++ ['g']) = _
      rw [bracedChar, List.takeWhile_eq_self_iff.2 hne, hbad]
      rfl
    rw [unescape, unescapeAfter, if_neg (by simp)]
    split <;> rename_i heq <;> rw [hstep] at heq <;> cases heq
    rfl
  have hg : ∀ d ∈ ['g'].head?, d.isDigit = false := fun d hd => by cases hd; rfl
  have hread := unescape_append hspells hg
  rw [List.append_assoc, unescape_append hbefore (fun d hd => by cases hd; rfl)] at hread
  simp only [List.cons_append] at hread
  rw [herror, unescape_of_reads (.char (step_of_ne (by decide) [])), unescape_nil] at hread
  cases hread

/-! ## All bodies -/

/-- **What stands for a text is well formed.** A body stands for a text exactly if it spells it one
character after the other, raw or by complete escapes and surrogates only in pairs, or if nothing
but the brace that closes its last escape is missing. Every other body fails for a bad escape. -/
theorem unescape_eq_ok_iff_spells (body : List Char) :
    (∀ s, unescape body = .ok s ↔ Spells s body ∨ SpellsOpen s body) ∧
      (∀ s t, SpellsOpen s body → ¬ Spells t body) ∧
      ∀ e, unescape body = .error e → e.kind = .escape := by
  refine ⟨fun s => ⟨spells_of_unescape, ?_⟩, fun s t hopen => hopen.not_spells,
    unescapeAfter_escape none body⟩
  rintro (hspells | hopen)
  · have hhead : ∀ d ∈ ([] : List Char).head?, d.isDigit = false := by simp
    simpa [unescape_nil, Except.map] using unescape_append hspells hhead
  · exact unescape_of_spellsOpen hopen

/-- The body `\u{41` is read as `A`, although its escape has no closing brace. -/
theorem unescape_unclosed :
    let body := ['\\', 'u', '\x7b', '4', '1']
    unescape body = .ok ['A'] ∧ ∀ s, ¬ Spells s body := by
  intro body
  have hopen : SpellsOpen ['A'] body :=
    ⟨[], [], 'A', ['4', '1'], rfl, rfl, .nil, spellsHex_iff.2 (by decide)⟩
  exact ⟨unescape_of_spellsOpen hopen, fun s => hopen.not_spells⟩

end Stencil.Escapes
