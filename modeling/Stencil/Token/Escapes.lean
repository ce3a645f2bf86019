import Stencil.Error
import Stencil.Number.Reading
import Stencil.Text.Units

/-!
# Escapes in quoted texts

The body of a quoted text spells some characters with a backslash.

* `Piece`: what one step of a body stands for, a character or a single UTF-16 unit
* `escaped`: the step that starts with a backslash
* `unescape`: the text that a body stands for
* `unescape_of_not_mem`: a body without a backslash
-/

namespace Stencil.Escapes

open Stencil.Text

/-- What a step of a body stands for. -/
inductive Piece where
  /-- A whole character. -/
  | char (c : Char)
  /-- One UTF-16 code unit. Two of them may make up a character. -/
  | unit (u : Nat)
  deriving DecidableEq, Repr

/-- The character with a code point, if there is one. -/
def charOf? (n : Nat) : Option Char :=
  if n.isValidChar then some (Char.ofNat n) else none

/-- The character that a one-letter escape stands for. -/
def letterEscape? : Char → Option Char
  | 'b' => some '\x08'
  | 'f' => some '\x0c'
  | 'n' => some '\n'
  | 'r' => some '\r'
  | 't' => some '\t'
  | 'v' => some '\x0b'
  | _ => none

/-- A unit spelled with a fixed number of hexadecimal digits, and what follows. -/
def fixedUnit (count : Nat) (s : List Char) : Except Error (Piece × List Char) :=
  if s.length < count then .error .escape
  else
    match Number.wholeNumber? 16 (s.take count) with
    | some u => .ok (.unit u, s.drop count)
    | none => .error .escape

/-- A character spelled by its code point in braces, and what follows. The closing brace may be
missing at the end of the body. -/
def bracedChar (s : List Char) : Except Error (Piece × List Char) :=
  match (Number.wholeNumber? 16 (s.takeWhile (· != '\x7d'))).bind charOf? with
  | some c => .ok (.char c, (s.dropWhile (· != '\x7d')).drop 1)
  | none => .error .escape

/-- The step after a backslash, and what follows it. -/
def escaped : List Char → Except Error (Piece × List Char)
  | [] => .error .escape
  | 'x' :: rest => fixedUnit 2 rest
  | 'u' :: '\x7b' :: rest => bracedChar rest
  | 'u' :: rest => fixedUnit 4 rest
  | c :: rest =>
    if c = '0' ∧ ¬ rest.head?.any Number.isDigit then .ok (.char '\x00', rest)
    else if Number.isDigit c then .error .octalEscape
    else .ok (.char ((letterEscape? c).getD c), rest)

/-- The first step of a body, and what follows it. -/
def step : List Char → Except Error (Piece × List Char)
  | '\\' :: rest => escaped rest
  | c :: rest => .ok (.char c, rest)
  | [] => .error .escape

/-- Adds a step: the characters that are complete with it, and the high surrogate that still waits
for its other half. A surrogate must be followed at once by its other half. -/
def push (waiting : Option Nat) : Piece → Except Error (List Char × Option Nat)
  | .char c => if waiting.isNone then .ok ([c], none) else .error .escape
  | .unit u =>
    match waiting with
    | none => if isHigh u || isLow u then .ok ([], some u) else .ok ([Char.ofNat u], none)
    | some high => if isHigh high && isLow u then .ok ([ofPair high u], none) else .error .escape

/-! ## The rest gets shorter -/

theorem length_of_fixedUnit {count : Nat} {s rest : List Char} {p : Piece}
    (h : fixedUnit count s = .ok (p, rest)) : rest.length ≤ s.length := by
  unfold fixedUnit at h
  split at h
  · simp at h
  · split at h
    · simp only [Except.ok.injEq, Prod.mk.injEq] at h
      simp [← h.2]
    · simp at h

theorem length_of_bracedChar {s rest : List Char} {p : Piece}
    (h : bracedChar s = .ok (p, rest)) : rest.length ≤ s.length := by
  unfold bracedChar at h
  split at h
  · simp only [Except.ok.injEq, Prod.mk.injEq] at h
    have : (s.dropWhile (· != '\x7d')).length ≤ s.length := (List.dropWhile_suffix _).length_le
    simp only [← h.2, List.length_drop]
    omega
  · simp at h

theorem length_of_escaped {s rest : List Char} {p : Piece}
    (h : escaped s = .ok (p, rest)) : rest.length < s.length := by
  unfold escaped at h
  split at h
  · simp at h
  · have := length_of_fixedUnit h
    simp only [List.length_cons]
    omega
  · have := length_of_bracedChar h
    simp only [List.length_cons]
    omega
  · have := length_of_fixedUnit h
    simp only [List.length_cons]
    omega
  · split at h
    · simp only [Except.ok.injEq, Prod.mk.injEq] at h
      simp [← h.2]
    · split at h
      · simp at h
      · simp only [Except.ok.injEq, Prod.mk.injEq] at h
        simp [← h.2]

theorem length_of_step {s rest : List Char} {p : Piece}
    (h : step s = .ok (p, rest)) : rest.length < s.length := by
  unfold step at h
  split at h
  · have := length_of_escaped h
    simp only [List.length_cons]
    omega
  · simp only [Except.ok.injEq, Prod.mk.injEq] at h
    simp [← h.2]
  · simp at h

/-! ## Whole bodies -/

/-- The text that a body stands for when a surrogate may be waiting before it. -/
def unescapeAfter (waiting : Option Nat) (s : List Char) : Except Error (List Char) :=
  if s.isEmpty then
    if waiting.isNone then .ok [] else .error .escape
  else
    match _h : step s with
    | .error e => .error e
    | .ok (piece, rest) =>
      match push waiting piece with
      | .error e => .error e
      | .ok (chars, waiting) => (unescapeAfter waiting rest).map (chars ++ ·)
termination_by s.length
decreasing_by exact length_of_step _h

/-- The text that the body of a quoted text stands for. -/
def unescape (body : List Char) : Except Error (List Char) :=
  unescapeAfter none body

/-! ## Small facts -/

theorem step_of_ne {c : Char} (hc : c ≠ '\\') (rest : List Char) :
    step (c :: rest) = .ok (.char c, rest) := by
  unfold step
  split
  · rename_i heq
    exact absurd (List.cons.inj heq).1 hc
  · rename_i heq
    rw [(List.cons.inj heq).1, (List.cons.inj heq).2]
  · rename_i heq
    cases heq

theorem unescape_cons_of_ne {c : Char} (hc : c ≠ '\\') (rest : List Char) :
    unescape (c :: rest) = (unescape rest).map (c :: ·) := by
  rw [unescape, unescapeAfter, if_neg (by simp)]
  split <;> rename_i heq <;> rw [step_of_ne hc] at heq <;> cases heq
  rfl

/-- A body without a backslash stands for itself. -/
theorem unescape_of_not_mem {body : List Char} (h : '\\' ∉ body) : unescape body = .ok body := by
  induction body with
  | nil =>
    rw [unescape, unescapeAfter]
    rfl
  | cons c rest ih =>
    have hc : c ≠ '\\' := fun heq => h (heq ▸ List.mem_cons_self)
    rw [unescape_cons_of_ne hc, ih fun hrest => h (List.mem_cons_of_mem c hrest)]
    rfl

end Stencil.Escapes
