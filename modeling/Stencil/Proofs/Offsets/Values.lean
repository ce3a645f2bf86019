import Stencil.Proofs.Indexing
import Stencil.Proofs.Offsets.Numerals
import Stencil.Proofs.References
import Stencil.Run.Eval

/-!
# Parts of values

A run takes parts of sequences and cuts texts: in two built-in methods, where a text is escaped and
where it is read as a number. Each of these operations is checked here. None is applied outside its
domain, but for the parts of sequences that have more items than doubles can count.

* `Fault`, `Agrees`: what a checked operation may find, and what it means that it finds nothing else
  than such a sequence
* `part?`, `window?`, `windows?`: parts of a sequence by indexes, and all parts of a size
* `method?`: the built-in methods
* `escapeValue?`: escaping for HTML
* `numberOf?`: the number that a text stands for
-/

namespace Stencil.Offsets

open Stencil.Text

/-! ## Faults -/

/-- An operation that is applied outside its domain. -/
inductive Fault where
  /-- An operator that may leave out its right operand is applied to two values. -/
  | operator (op : LogicOp)
  /-- A part of a sequence ends before it begins, or after the end of the sequence. -/
  | part (first last length : Nat)
  /-- All parts of a sequence that have no items are asked for. -/
  | emptyParts
  /-- A text is cut after its end or in the middle of a character. -/
  | cut (offset : Nat)
  deriving DecidableEq, Repr

/-- Is the fault about a part of a sequence that has too many items for doubles to count? -/
def Fault.IsOversized : Fault → Prop
  | .part _ _ length => Number.exactBound ≤ length
  | .operator _ | .emptyParts | .cut _ => False

/-- The checked operation gives the result of the operation itself, unless a part is taken of a
sequence that has too many items for doubles to count. -/
def Agrees {α : Type} (checked : Except Fault α) (a : α) : Prop :=
  checked = .ok a ∨ ∃ fault, checked = .error fault ∧ fault.IsOversized

theorem Agrees.ok {α : Type} {a : α} : Agrees (.ok a) a :=
  .inl rfl

theorem Agrees.map {α β : Type} {checked : Except Fault α} {a : α} (h : Agrees checked a)
    (f : α → β) : Agrees (checked.map f) (f a) := by
  rcases h with rfl | ⟨fault, rfl, hfault⟩
  · exact .ok
  · exact .inr ⟨fault, rfl, hfault⟩

/-! ## Parts of sequences -/

section

variable {α : Type}

/-- The items from one index up to another one. The indexes must be in order and in bounds. -/
def part? (items : List α) (first last : Nat) : Except Fault (List α) :=
  if first ≤ last ∧ last ≤ items.length then .ok ((items.drop first).take (last - first))
  else .error (.part first last items.length)

/-- The items from one index up to another one, both of which are arguments. -/
def window? (items : List α) (start stop : Value) : Except Fault (List α) :=
  let bounds := sliceBounds items.length start stop
  part? items bounds.1 bounds.2

theorem window?_eq_ok {items : List α} (hlength : items.length < Number.exactBound)
    (start stop : Value) : window? items start stop = .ok (window items start stop) := by
  have hbounds := sliceBounds_le hlength start stop
  rw [window?, part?, if_pos hbounds, window, List.drop_take]

theorem window?_agrees (items : List α) (start stop : Value) :
    Agrees (window? items start stop) (window items start stop) := by
  rcases Nat.lt_or_ge items.length Number.exactBound with hlength | hlength
  · exact .inl (window?_eq_ok hlength start stop)
  unfold window? part?
  dsimp only
  split
  · rw [window, List.drop_take]
    exact .ok
  · exact .inr ⟨_, rfl, hlength⟩

/-- All parts of a sequence that have a number of items. There must be one item at least. -/
def windows? (items : List α) (count : Nat) : Except Fault (List (List α)) :=
  if count = 0 then .error .emptyParts
  else .ok ((List.range (items.length + 1 - count)).map fun i => (items.drop i).take count)

variable [BEq α]

/-- The first position at which a sequence occurs in another one. An empty one occurs at the
beginning, and is not looked for. -/
def position? (needle items : List α) : Except Fault (Option Nat) :=
  if needle.isEmpty then .ok (some 0)
  else (windows? items needle.length).map fun parts => parts.findIdx? (· == needle)

theorem indexIn?_of_isEmpty {needle : List α} (h : needle.isEmpty) (items : List α) :
    indexIn? needle items = some 0 := by
  obtain rfl := List.isEmpty_iff.1 h
  cases items <;> rfl

variable [LawfulBEq α]

/-- Looking through the parts finds the first position. -/
theorem findIdx?_windows {needle : List α} (h : needle ≠ []) (items : List α) :
    ((List.range (items.length + 1 - needle.length)).map fun i =>
        (items.drop i).take needle.length).findIdx? (· == needle) = indexIn? needle items := by
  have hpos := List.length_pos_iff.2 h
  induction items with
  | nil =>
    have hcount : 0 + 1 - needle.length = 0 := by omega
    simp [hcount, indexIn?, h]
  | cons x xs ih =>
    have hprefix : needle.isPrefixOf (x :: xs) = ((x :: xs).take needle.length == needle) := by
      rw [Bool.eq_iff_iff, List.isPrefixOf_iff_prefix, List.prefix_iff_eq_take, beq_iff_eq]
      exact eq_comm
    rw [indexIn?, hprefix, ← ih]
    by_cases hle : needle.length ≤ xs.length + 1
    · have hcount : (x :: xs).length + 1 - needle.length = xs.length + 1 - needle.length + 1 := by
        simp
        omega
      rw [hcount, List.range_succ_eq_map, List.map_cons, List.findIdx?_cons, List.map_map]
      rfl
    -- the sequence is longer than what is left
    · have hcount : xs.length + 1 + 1 - needle.length = 0 := by omega
      have hcount' : xs.length + 1 - needle.length = 0 := by omega
      have hne : (x :: xs).take needle.length ≠ needle := by
        intro heq
        have := congrArg List.length heq
        simp at this
        omega
      simp [hcount, hcount', hne]

theorem position?_eq_ok (needle items : List α) :
    position? needle items = .ok (indexIn? needle items) := by
  unfold position?
  split
  · rename_i hempty
    rw [indexIn?_of_isEmpty hempty]
  · rename_i hempty
    have hne : needle ≠ [] := fun hnil => hempty (List.isEmpty_iff.2 hnil)
    rw [windows?, if_neg fun hzero => hne (List.length_eq_zero_iff.1 hzero), Except.map,
      findIdx?_windows hne]

end

/-! ## Methods -/

/-- The result of a built-in method of a value, if the value has a method of that name. -/
def method? (fresh : Ref) (v : Value) (name : String) (arguments : List Value) :
    Except Fault (Option Value) :=
  let start := argument arguments 0
  let stop := argument arguments 1
  match v with
  | .string s =>
    if name = "indexOf" then
      (position? (encode start.chars) (encode s.toList)).map fun n => some (positionValue n)
    else if name = "slice" then
      (window? (encode s.toList) start stop).map fun units =>
        some (.string (String.ofList (decode units)))
    else .ok (v.method? fresh name arguments)
  | .array _ items =>
    if name = "slice" then
      (window? items start stop).map fun items => some (.array fresh items)
    else .ok (v.method? fresh name arguments)
  | v => .ok (v.method? fresh name arguments)

/-- The built-in methods take no part of anything that is not there, unless the sequence has too
many items. -/
theorem method?_agrees (fresh : Ref) (v : Value) (name : String) (arguments : List Value) :
    Agrees (method? fresh v name arguments) (v.method? fresh name arguments) := by
  cases v with
  | string s =>
    rw [method?]
    by_cases hindex : name = "indexOf"
    · subst hindex
      rw [if_pos rfl, position?_eq_ok]
      exact .ok
    by_cases hslice : name = "slice"
    · subst hslice
      rw [if_neg hindex, if_pos rfl]
      exact (window?_agrees _ _ _).map _
    · rw [if_neg hindex, if_neg hslice]
      exact .ok
  | array id items =>
    rw [method?]
    by_cases hslice : name = "slice"
    · subst hslice
      rw [if_pos rfl]
      exact (window?_agrees _ _ _).map _
    · rw [if_neg hslice]
      exact .ok
  | _ => exact .ok

/-! ## Escaping -/

/-- The offset of the first character of a kind. -/
def offsetOf? (p : Char → Bool) : List Char → Option Nat
  | [] => none
  | c :: s => if p c then some 0 else (offsetOf? p s).map (· + c.utf8Size)

/-- A text with every special character written as a reference. What is before the first one is
copied. -/
def escape? (s : List Char) : Except Fault (List Char) :=
  match offsetOf? Html.isSpecial s with
  | none => .ok s
  | some n =>
    match cut? s n with
    | none => .error (.cut n)
    | some parts => .ok (parts.1 ++ parts.2.flatMap Html.escapeChar)

/-- A text with its special characters escaped. Any other value stays as it is. -/
def escapeValue? : Value → Except Fault Value
  | .string s => (escape? s.toList).map fun text => .string (String.ofList text)
  | v => .ok v

/-- The first character of a kind is found where the others end. -/
theorem offsetOf?_eq (p : Char → Bool) (s : List Char) :
    (offsetOf? p s = none ∧ ∀ c ∈ s, p c = false) ∨
      ∃ before after, s = before ++ after ∧ offsetOf? p s = some (size before) ∧
        ∀ c ∈ before, p c = false := by
  induction s with
  | nil => exact .inl ⟨rfl, nofun⟩
  | cons c s ih =>
    by_cases hc : p c = true
    · exact .inr ⟨[], c :: s, rfl, by simp [offsetOf?, hc], nofun⟩
    · have hfalse := Bool.eq_false_iff.2 hc
      rcases ih with ⟨hnone, hall⟩ | ⟨before, after, rfl, hsome, hall⟩
      · exact .inl ⟨by simp [offsetOf?, hc, hnone], List.forall_mem_cons.2 ⟨hfalse, hall⟩⟩
      · refine .inr ⟨c :: before, after, rfl, ?_, List.forall_mem_cons.2 ⟨hfalse, hall⟩⟩
        simp [offsetOf?, hc, hsome, Nat.add_comm]

theorem escape?_eq_ok (s : List Char) : escape? s = .ok (Html.escape s) := by
  rw [escape?]
  rcases offsetOf?_eq Html.isSpecial s with ⟨hnone, hall⟩ | ⟨before, after, rfl, hsome, hall⟩
  · rw [hnone, Html.Plain.escape_eq hall]
  · have hafter : after.flatMap Html.escapeChar = Html.escape after := rfl
    simp [hsome, hafter, Html.escape_append, Html.Plain.escape_eq hall]

theorem escapeValue?_eq_ok (v : Value) : escapeValue? v = .ok (escapeValue v) := by
  cases v with
  | string s =>
    rw [escapeValue?, escape?_eq_ok]
    rfl
  | _ => rfl

/-! ## Numbers -/

/-- The number that a text stands for. The two bytes that announce a base are cut off. -/
def numberOf? (s : List Char) : Option Float :=
  match baseOf? (codes (trim s)) with
  | some base => (from? (trim s) 2).map fun digits =>
    ((Number.word? base digits).map Float.ofNat).getD Number.nan
  | none => some (Number.ofTrimmed (trim s))

theorem ofTrimmed_of_base? {s digits : List Char} {base : Nat}
    (h : Numeral.base? s = some (base, digits)) :
    Number.ofTrimmed s = ((Number.word? base digits).map Float.ofNat).getD Number.nan := by
  unfold Numeral.base? at h
  split at h
  · rename_i c rest
    simp only [Option.map_eq_some_iff, Prod.mk.injEq] at h
    obtain ⟨base, hradix, rfl, rfl⟩ := h
    rw [Number.ofTrimmed, hradix]
  · cases h

theorem numberOf?_eq_some (s : List Char) : numberOf? s = some (Number.ofText s) := by
  rw [numberOf?, baseOf?_codes, Number.ofText]
  cases hbase : Numeral.base? (trim s) with
  | none => rfl
  | some found =>
    obtain ⟨base, digits⟩ := found
    simp [from?_of_base? hbase, ofTrimmed_of_base? hbase]

end Stencil.Offsets
