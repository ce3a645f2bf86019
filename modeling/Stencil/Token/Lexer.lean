import Stencil.Token.Escapes
import Stencil.Token.Numeral
import Stencil.Text.Blank

/-!
# From text to tokens

* `Mark.read?`: the longest mark at the beginning of a text
* `quoted`: a text in quotes
* `next`: the first token of a text that starts with no blank
* `tokens`: all tokens of a fragment's interior
-/

namespace Stencil

open Stencil.Text

/-- The text after a given beginning, if it starts with it. -/
def after? : List Char → List Char → Option (List Char)
  | [], s => some s
  | c :: cs, d :: ds => if c = d then after? cs ds else none
  | _ :: _, [] => none

/-- The longest mark that a text starts with, and the text after it. -/
def Mark.read? (s : List Char) : Option (Mark × List Char) :=
  Mark.all.findSome? fun m => (after? m.spelling.toList s).map fun rest => (m, rest)

namespace Lexer

/-- A letter from `a` to `z` in either case, an underscore or a dollar sign. -/
def startsName (c : Char) : Bool :=
  ('a' ≤ c && c ≤ 'z') || ('A' ≤ c && c ≤ 'Z') || c == '_' || c == '$'

/-- A character that a name goes on with. -/
def continuesName (c : Char) : Bool :=
  startsName c || Number.isDigit c

/-- Does a numeral start here: with a digit, or with a point and a digit? -/
def startsNumeral : List Char → Bool
  | '.' :: c :: _ => Number.isDigit c
  | c :: _ => Number.isDigit c
  | [] => false

/-- The body of a quoted text up to its closing quote, and the text after the quote. A backslash
takes the character after it along. -/
def body? (quote : Char) : List Char → Option (List Char × List Char)
  | '\\' :: c :: rest => (body? quote rest).map fun (inside, after) => ('\\' :: c :: inside, after)
  | c :: rest =>
    if c = quote then some ([], rest)
    else (body? quote rest).map fun (inside, after) => (c :: inside, after)
  | [] => none

/-- The text in quotes whose opening quote was just read, and the text after it. -/
def quoted (quote : Char) (s : List Char) : Except Error (Token × List Char) := do
  match body? quote s with
  | some (inside, after) => return (.text (String.ofList (← Escapes.unescape inside)), after)
  | none => .error (.malformed .openText)

/-- The name at the beginning of a text, and the text after it. -/
def name (s : List Char) : Except Error (Token × List Char) :=
  match s with
  | c :: _ =>
    if startsName c then
      .ok (.name (String.ofList (s.takeWhile continuesName)), s.dropWhile continuesName)
    else .error (.malformed .character)
  | [] => .error (.malformed .character)

/-- The token at the beginning of a text, and the text after it. -/
def next (s : List Char) : Except Error (Token × List Char) :=
  if startsNumeral s then (Numeral.read s).map fun (x, rest) => (.number x, rest)
  else
    match s with
    | '\'' :: rest => quoted '\'' rest
    | '"' :: rest => quoted '"' rest
    | _ =>
      match Mark.read? s with
      | some (m, rest) => .ok (.mark m, rest)
      | none => name s

/-! ## The rest gets shorter -/

theorem length_of_after? {cs s rest : List Char} (h : after? cs s = some rest) :
    s.length = cs.length + rest.length := by
  fun_induction after? cs s with
  | case1 s => simp_all
  | case2 c cs ds ih =>
    simp only [List.length_cons, ih h]
    omega
  | case3 => simp at h
  | case4 => simp at h

theorem length_of_read? {s rest : List Char} {m : Mark} (h : Mark.read? s = some (m, rest)) :
    rest.length < s.length := by
  simp only [Mark.read?, List.findSome?_eq_some_iff, Option.map_eq_some_iff, Prod.mk.injEq] at h
  obtain ⟨_, n, _, _, ⟨r, hr, rfl, rfl⟩, _⟩ := h
  have hl := length_of_after? hr
  have hp : 0 < n.spelling.toList.length := by cases n <;> decide
  omega

theorem length_of_body? {quote : Char} {s inside after : List Char}
    (h : body? quote s = some (inside, after)) : after.length < s.length := by
  fun_induction body? quote s generalizing inside after with
  | case1 c rest ih =>
    simp only [Option.map_eq_some_iff, Prod.mk.injEq, Prod.exists] at h
    obtain ⟨i, a, h, _, rfl⟩ := h
    have := ih h
    simp only [List.length_cons]
    omega
  | case2 =>
    simp only [Option.some.injEq, Prod.mk.injEq] at h
    simp [← h.2]
  | case3 c rest _ _ ih =>
    simp only [Option.map_eq_some_iff, Prod.mk.injEq, Prod.exists] at h
    obtain ⟨i, a, h, _, rfl⟩ := h
    have := ih h
    simp only [List.length_cons]
    omega
  | case4 => simp at h

theorem length_of_quoted {quote : Char} {s rest : List Char} {t : Token}
    (h : quoted quote s = .ok (t, rest)) : rest.length < s.length := by
  unfold quoted at h
  split at h
  · rename_i inside after hb
    cases hu : Escapes.unescape inside with
    | error e => simp [hu, bind, Except.bind] at h
    | ok text =>
      simp only [hu, bind, Except.bind, pure, Except.pure, Except.ok.injEq, Prod.mk.injEq] at h
      rw [← h.2]
      exact length_of_body? hb
  · simp at h

theorem length_of_name {s rest : List Char} {t : Token} (h : name s = .ok (t, rest)) :
    rest.length < s.length := by
  unfold name at h
  split at h
  · rename_i c cs
    split at h
    · rename_i hc
      simp only [Except.ok.injEq, Prod.mk.injEq] at h
      have hc' : continuesName c = true := by simp [continuesName, hc]
      rw [← h.2, List.dropWhile_cons_of_pos hc']
      exact Nat.lt_succ_of_le (List.dropWhile_suffix continuesName).length_le
    · simp at h
  · simp at h

theorem length_of_numeral {s rest : List Char} {x : Float} (hs : startsNumeral s = true)
    (h : Numeral.read s = .ok (x, rest)) : rest.length < s.length := by
  unfold Numeral.read at h
  split at h
  · rename_i base t hb
    cases hv : Numeral.based base (Numeral.extent (.based (base == 16)) t).1 with
    | error e => simp [hv, Except.map] at h
    | ok y =>
      simp only [hv, Except.map, Except.ok.injEq, Prod.mk.injEq] at h
      have hl := Numeral.length_extent_le (.based (base == 16)) t
      unfold Numeral.base? at hb
      split at hb
      · simp only [Option.map_eq_some_iff, Prod.mk.injEq] at hb
        obtain ⟨_, _, _, rfl⟩ := hb
        rw [← h.2]
        simp only [List.length_cons]
        omega
      · simp at hb
  · cases hv : Numeral.decimal (Numeral.extent .whole s).1 with
    | error e => simp [hv, Except.map] at h
    | ok y =>
      simp only [hv, Except.map, Except.ok.injEq, Prod.mk.injEq] at h
      rw [← h.2]
      match s, hs with
      | c :: cs, hs =>
        have hn : ∃ t, Numeral.State.next? .whole c = some t := by
          by_cases hd : Number.isDigit c
          · exact ⟨.whole, by simp [Numeral.State.next?, hd]⟩
          · have hc : c = '.' := by
              unfold startsNumeral at hs
              split at hs <;> simp_all
            exact ⟨.fraction, by subst hc; decide⟩
        obtain ⟨t, ht⟩ := hn
        have hl := Numeral.length_extent_le t cs
        simp only [Numeral.extent, ht, List.length_cons]
        omega

theorem length_of_next {s rest : List Char} {t : Token} (h : next s = .ok (t, rest)) :
    rest.length < s.length := by
  unfold next at h
  split at h
  · rename_i hs
    cases hr : Numeral.read s with
    | error e => simp [hr, Except.map] at h
    | ok p =>
      obtain ⟨x, r⟩ := p
      simp only [hr, Except.map, Except.ok.injEq, Prod.mk.injEq] at h
      rw [← h.2]
      exact length_of_numeral hs hr
  · split at h
    · have := length_of_quoted h
      simp only [List.length_cons]
      omega
    · have := length_of_quoted h
      simp only [List.length_cons]
      omega
    · split at h
      · rename_i hm
        simp only [Except.ok.injEq, Prod.mk.injEq] at h
        rw [← h.2]
        exact length_of_read? hm
      · exact length_of_name h

/-! ## All tokens -/

/-- The tokens of a text, with blanks before, between and after them. -/
def tokens (s : List Char) : Except Error (List Token) :=
  if (trimStart s).isEmpty then .ok []
  else
    match _h : next (trimStart s) with
    | .error e => .error e
    | .ok (t, rest) => (tokens rest).map (t :: ·)
termination_by s.length
decreasing_by exact Nat.lt_of_lt_of_le (length_of_next _h) (length_trimStart_le s)

end Lexer

end Stencil
