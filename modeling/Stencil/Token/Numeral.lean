import Stencil.Error
import Stencil.Number.Reading

/-!
# Numerals

* `State`, `State.next?`: how far a numeral reaches, as a small automaton
* `extent`: the longest text that the automaton accepts
* `read`: the number that a numeral stands for
-/

namespace Stencil.Numeral

open Stencil.Number

/-- Where in a numeral we are. -/
inductive State where
  /-- Among the digits of a whole number in base two, eight or sixteen. -/
  | based (hex : Bool)
  /-- Before the point of a decimal numeral. -/
  | whole
  /-- After the point. -/
  | fraction
  /-- Directly after the letter of the exponent. -/
  | exponent
  /-- In the exponent. -/
  | power
  deriving DecidableEq, Repr

/-- The state after one more character, if it belongs to the numeral. -/
def State.next? (s : State) (c : Char) : Option State :=
  if isDigit c then some (if s = .exponent then .power else s)
  else if c = '_' then some s
  else
    match s with
    | .based hex => if hex && (digitValue? 16 c).isSome then some s else none
    | .whole =>
      if c = '.' then some .fraction else if c = 'e' ∨ c = 'E' then some .exponent else none
    | .fraction => if c = 'e' ∨ c = 'E' then some .exponent else none
    | .exponent => if c = '+' ∨ c = '-' then some .power else none
    | .power => none

/-- The characters that belong to the numeral, and the rest. -/
def extent (s : State) : List Char → List Char × List Char
  | [] => ([], [])
  | c :: rest =>
    match s.next? c with
    | some s => let (inside, after) := extent s rest; (c :: inside, after)
    | none => ([], c :: rest)

/-- Digits without the underscores between them. An underscore at the end is an error. -/
def dropUnderscores (s : List Char) : Except Error (List Char) :=
  if s.getLast? = some '_' then .error (.malformed .trailingUnderscore)
  else .ok (s.filter (· != '_'))

/-- The value of a whole number in a base, summed up in doubles so that long numerals lose precision
instead of failing. -/
def accumulate (base : Nat) (values : List Nat) : Float :=
  values.foldl (fun x d => x * Float.ofNat base + Float.ofNat d) 0

/-- The number that digits in a base stand for. -/
def based (base : Nat) (s : List Char) : Except Error Float := do
  let digits ← dropUnderscores s
  match digits.isEmpty, digits.mapM (digitValue? base) with
  | false, some values => .ok (accumulate base values)
  | _, _ => .error (.malformed .integer)

/-- The number that a decimal numeral stands for. -/
def decimal (s : List Char) : Except Error Float := do
  match decimal? (← dropUnderscores s) with
  | some x => .ok x
  | none => .error (.malformed .number)

/-- The base that a text announces, and the text after the announcement. -/
def base? : List Char → Option (Nat × List Char)
  | '0' :: c :: rest => (radix? c).map fun base => (base, rest)
  | _ => none

/-- The number at the beginning of a text, and the text after it. -/
def read (s : List Char) : Except Error (Float × List Char) :=
  match base? s with
  | some (base, s) =>
    let (inside, after) := extent (.based (base == 16)) s
    (based base inside).map fun x => (x, after)
  | none =>
    let (inside, after) := extent .whole s
    (decimal inside).map fun x => (x, after)

/-! ## Small facts -/

theorem extent_append (s : State) (cs : List Char) :
    (extent s cs).1 ++ (extent s cs).2 = cs := by
  induction cs generalizing s with
  | nil => rfl
  | cons c rest ih =>
    unfold extent
    split
    · rename_i t _
      simp [ih t]
    · rfl

theorem length_extent_le (s : State) (cs : List Char) :
    (extent s cs).2.length ≤ cs.length := by
  have h := congrArg List.length (extent_append s cs)
  simp only [List.length_append] at h
  omega

end Stencil.Numeral
