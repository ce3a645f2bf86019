import Stencil.Proofs.Number.Digits
import Stencil.Proofs.Offsets.Basic
import Stencil.Token
import Stencil.Token.Numeral

/-!
# Numerals by offsets

The number that a text starts with, found by looking at single bytes. The numeral is cut off after
as many bytes as belong to it, which are all ASCII.

* `numeralSize?`: how many bytes belong to a numeral
* `number?`: the number at the beginning of a text
* `number?_eq_some`: the main statement
-/

namespace Stencil.Offsets

/-! ## The reader -/

/-- Is the byte a digit? -/
def isDigitCode (code : Option Char) : Bool :=
  code.any Number.isDigit

/-- How many bytes go on with a numeral. -/
def extentSize (state : Numeral.State) : List (Option Char) → Nat
  | [] => 0
  | code :: rest =>
    match code.bind state.next? with
    | some state => extentSize state rest + 1
    | none => 0

/-- The part of a list from an index. The index must be in the list or at its end. -/
def drop? {α : Type} (items : List α) (n : Nat) : Option (List α) :=
  if n ≤ items.length then some (items.drop n) else none

/-- How many bytes a numeral has. The digits that it starts with are passed over first. -/
def numeralSize? (state : Numeral.State) (bs : List (Option Char)) : Option Nat := do
  let digits := (bs.takeWhile isDigitCode).length
  let rest ← drop? bs digits
  return digits + extentSize state rest

/-- The base that the first two bytes of a text announce. -/
def baseOf? (bs : List (Option Char)) : Option Nat :=
  if bs[0]? = some (some '0') then bs[1]?.join.bind Number.radix? else none

/-- The number at the beginning of a text, and the text after it. -/
def number? (s : List Char) : Option (Except Error (Token × List Char)) :=
  match baseOf? (codes s) with
  | some base => do
    let s ← from? s 2
    let parts ← cut? s (← numeralSize? (.based (base == 16)) (codes s))
    return (Numeral.based base parts.1).map fun x => (.number x, parts.2)
  | none => do
    let parts ← cut? s (← numeralSize? .whole (codes s))
    return (Numeral.decimal parts.1).map fun x => (.number x, parts.2)

/-! ## Classes of ASCII characters -/

theorem isAscii_of_isDigit {c : Char} (h : Number.isDigit c = true) : IsAscii c := by
  simp only [Number.isDigit, Bool.and_eq_true, decide_eq_true_eq] at h
  exact Nat.lt_of_le_of_lt h.2 (by decide)

theorem isAscii_of_radix? {c : Char} (h : (Number.radix? c).isSome) : IsAscii c := by
  unfold Number.radix? at h
  split at h <;> first | decide | cases h

theorem isAscii_of_digitValue? {c : Char} {base : Nat}
    (h : (Number.digitValue? base c).isSome) : IsAscii c := by
  cases hvalue : Number.letterValue? c with
  | none => simp [Number.digitValue?, hvalue] at h
  | some v => exact Number.toNat_lt_of_letterValue? hvalue

/-- Only ASCII characters go on with a numeral. -/
theorem isAscii_of_next? {state : Numeral.State} {c : Char} (h : (state.next? c).isSome) :
    IsAscii c := by
  unfold Numeral.State.next? at h
  split at h
  · exact isAscii_of_isDigit ‹_›
  split at h
  · rename_i hc
    rw [hc]
    decide
  cases state with
  | based hex =>
    simp only at h
    split at h
    · rename_i hdigit
      exact isAscii_of_digitValue? (Bool.and_eq_true_iff.1 hdigit).2
    · cases h
  | power => cases h
  | whole | fraction | exponent =>
    have hsign : c = '.' ∨ c = 'e' ∨ c = 'E' ∨ c = '+' ∨ c = '-' := by grind
    rcases hsign with rfl | rfl | rfl | rfl | rfl <;> decide

/-! ## The numeral that is found -/

theorem extentSize_codes (state : Numeral.State) (s : List Char) :
    extentSize state (codes s) = size (Numeral.extent state s).1 := by
  induction s generalizing state with
  | nil => rfl
  | cons c s ih =>
    cases hnext : state.next? c with
    | some state' =>
      have hascii := isAscii_of_next? (Option.isSome_of_eq_some hnext)
      simp [codes_cons_of_isAscii hascii, extentSize, Numeral.extent, hnext, ih,
        utf8Size_of_isAscii hascii, Nat.add_comm]
    | none =>
      obtain ⟨rest, hcodes⟩ := exists_codes_cons c s
      have hfirst : (firstCode c).bind state.next? = state.next? c :=
        firstCode_bind (fun _ => isAscii_of_next?) c
      simp [hcodes, extentSize, Numeral.extent, hfirst, hnext]

/-- Digits leave the state of a numeral as it is, so they can be passed over. -/
theorem extentSize_eq_add {state : Numeral.State} (hstate : state ≠ .exponent)
    (bs : List (Option Char)) :
    extentSize state bs = (bs.takeWhile isDigitCode).length +
      extentSize state (bs.drop (bs.takeWhile isDigitCode).length) := by
  induction bs with
  | nil => rfl
  | cons code rest ih =>
    by_cases hdigit : isDigitCode code
    · obtain ⟨c, rfl, hc⟩ := (Option.any_eq_true _ _).1 hdigit
      have hnext : state.next? c = some state := by
        simp [Numeral.State.next?, hc, hstate]
      simp [extentSize, hnext, hdigit]
      omega
    · simp [hdigit]

theorem numeralSize?_codes {state : Numeral.State} (hstate : state ≠ .exponent) (s : List Char) :
    numeralSize? state (codes s) = some (size (Numeral.extent state s).1) := by
  have hle : ((codes s).takeWhile isDigitCode).length ≤ (codes s).length :=
    (List.takeWhile_prefix _).length_le
  rw [← extentSize_codes, extentSize_eq_add hstate]
  simp only [numeralSize?, drop?, if_pos hle]
  rfl

theorem cut?_extent (state : Numeral.State) (s : List Char) :
    cut? s (size (Numeral.extent state s).1) = some (Numeral.extent state s) :=
  cut?_eq_some_iff.2 ⟨(Numeral.extent_append state s).symm, rfl⟩

theorem base?_of_ne {c : Char} (h : c ≠ '0') (s : List Char) : Numeral.base? (c :: s) = none := by
  unfold Numeral.base?
  split
  · rename_i heq
    exact absurd (List.cons.inj heq).1 h
  · rfl

theorem baseOf?_codes (s : List Char) :
    baseOf? (codes s) = (Numeral.base? s).map Prod.fst := by
  cases s with
  | nil => rfl
  | cons c s =>
    obtain ⟨others, hcodes⟩ := exists_codes_cons c s
    by_cases hc : c = '0'
    · subst hc
      rw [codes_cons_of_isAscii (by decide)]
      cases s with
      | nil => rfl
      | cons d s =>
        obtain ⟨others, hcodes⟩ := exists_codes_cons d s
        have hradix := firstCode_bind (fun _ => isAscii_of_radix?) d
        simp [baseOf?, hcodes, hradix, Numeral.base?, Function.comp_def]
    · have hfirst : firstCode c ≠ some '0' :=
        fun heq => hc ((firstCode_eq_some_iff (by decide)).1 heq)
      simp [baseOf?, hcodes, hfirst, base?_of_ne hc]

/-- An announced base takes two bytes. -/
theorem from?_of_base? {s rest : List Char} {base : Nat}
    (h : Numeral.base? s = some (base, rest)) : from? s 2 = some rest := by
  unfold Numeral.base? at h
  split at h
  · rename_i c rest'
    simp only [Option.map_eq_some_iff, Prod.mk.injEq] at h
    obtain ⟨base, hradix, rfl, rfl⟩ := h
    have hascii := isAscii_of_radix? (Option.isSome_of_eq_some hradix)
    have hsize : size ['0', c] = 2 := by
      simp [utf8Size_of_isAscii hascii]
      rfl
    rw [← hsize]
    exact from?_append ['0', c] rest'
  · cases h

/-- The numeral by offsets is the numeral by characters. -/
theorem number?_eq_some (s : List Char) :
    number? s = some ((Numeral.read s).map fun p => (.number p.1, p.2)) := by
  rw [number?, baseOf?_codes, Numeral.read]
  cases hbase : Numeral.base? s with
  | none =>
    have hsize := @numeralSize?_codes .whole (by decide) s
    simp [hsize, cut?_extent]
    cases Numeral.decimal (Numeral.extent .whole s).1 <;> rfl
  | some found =>
    obtain ⟨base, rest⟩ := found
    have hsize := @numeralSize?_codes (.based (base == 16)) nofun rest
    simp [from?_of_base? hbase, hsize, cut?_extent]
    cases Numeral.based base (Numeral.extent (.based (base == 16)) rest).1 <;> rfl

end Stencil.Offsets
