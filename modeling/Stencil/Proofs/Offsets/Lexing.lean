import Stencil.Proofs.Lexing.Basic
import Stencil.Proofs.Offsets.Numerals
import Stencil.Token.Lexer

/-!
# Lexing by offsets

The tokens of a text, found by a lexer that looks at single bytes and cuts the text after as many
bytes as a token has. All its cuts exist, and it finds the tokens.

* `name?`, `quoted?`, `next?`: the tokens that a text starts with
* `tokens?`: all tokens
* `next?_eq_some`, `tokens?_eq_some`: the main statements
-/

namespace Stencil.Offsets

open Stencil.Text

/-! ## The lexer -/

/-- The mark of a number of bytes that a text starts with. -/
def markOf? (n : Nat) (bs : List (Option Char)) : Option Mark :=
  (Mark.all.filter fun m => m.spelling.toList.length == n).find? fun m =>
    bs.take n == m.spelling.toList.map some

/-- How many bytes a name has. -/
def nameSize : List (Option Char) → Nat
  | [] => 0
  | code :: rest =>
    if code.any Lexer.startsName then
      (rest.takeWhile (·.any Lexer.continuesName)).length + 1
    else 0

/-- The name at the beginning of a text, and the text after it. -/
def name? (s : List Char) : Option (Except Error (Token × List Char)) :=
  if nameSize (codes s) = 0 then some (.error (.malformed .character))
  else (cut? s (nameSize (codes s))).map fun parts =>
    .ok (.name (String.ofList parts.1), parts.2)

/-- What is known of the body of a quoted text. -/
structure Body where
  /-- The number of its bytes. -/
  size : Nat
  /-- Does it end with a backslash that takes something along? -/
  isOpen : Bool
  /-- Does it have a backslash? -/
  escapes : Bool

/-- The body with some more bytes before it. -/
def Body.more (b : Body) (n : Nat) : Body :=
  { b with size := b.size + n }

/-- The body of a quoted text, up to the byte of its closing quote. The byte after a backslash is
taken along. -/
def bodyOf (quote : Char) : (escaped : Bool) → List (Option Char) → Body
  | escaped, [] => ⟨0, escaped, false⟩
  | true, _ :: rest => (bodyOf quote false rest).more 1
  | false, code :: rest =>
    if code = some '\\' then { (bodyOf quote true rest).more 1 with escapes := true }
    else if code = some quote then ⟨0, false, false⟩
    else (bodyOf quote false rest).more 1

/-- A difference that is not negative. -/
def sub? (m n : Nat) : Option Nat :=
  if n ≤ m then some (m - n) else none

/-- The text in quotes at the beginning of a text, and the text after it. The quotes are one byte
each. -/
def quoted? (quote : Char) (s : List Char) : Option (Except Error (Token × List Char)) :=
  let body := bodyOf quote false ((codes s).drop 1)
  if body.isOpen || (codes s)[body.size + 1]? != some (some quote) then
    some (.error (.malformed .openText))
  else do
    let parts ← cut? s (body.size + 2)
    let inside ← slice? parts.1 1 (← sub? (size parts.1) 1)
    if body.escapes then
      return (Escapes.unescape inside).map fun text => (.text (String.ofList text), parts.2)
    else return .ok (.text (String.ofList inside), parts.2)

/-- The token at the beginning of a text, and the text after it. The text must have a first byte. -/
def next? (s : List Char) : Option (Except Error (Token × List Char)) :=
  match markOf? 3 (codes s) with
  | some m => (from? s 3).map fun rest => .ok (.mark m, rest)
  | none =>
    match markOf? 2 (codes s) with
    | some m => (from? s 2).map fun rest => .ok (.mark m, rest)
    | none => do
      let first ← (codes s)[0]?
      if first = some '.' ∧ (codes s)[1]?.any isDigitCode ∨ isDigitCode first then number? s
      else if first = some '\'' then quoted? '\'' s
      else if first = some '"' then quoted? '"' s
      else
        match markOf? 1 (codes s) with
        | some m => (from? s 1).map fun rest => .ok (.mark m, rest)
        | none => name? s

/-- All tokens of a text. No result at all means that the text was cut at an offset where it cannot
be cut, or that there were not enough rounds. -/
def tokensWithin? : (rounds : Nat) → List Char → Option (Except Error (List Token))
  | 0, _ => none
  | rounds + 1, s =>
    if (trimStart s).isEmpty then some (.ok [])
    else do
      match ← next? (trimStart s) with
      | .error e => return .error e
      | .ok (t, rest) => return (← tokensWithin? rounds rest).map (t :: ·)

/-- All tokens of a text. -/
def tokens? (s : List Char) : Option (Except Error (List Token)) :=
  tokensWithin? (s.length + 1) s

/-! ## Classes of ASCII characters -/

theorem isAscii_of_startsName {c : Char} (h : Lexer.startsName c = true) : IsAscii c := by
  simp only [Lexer.startsName, Bool.or_eq_true, Bool.and_eq_true, decide_eq_true_eq,
    beq_iff_eq] at h
  rcases h with ((⟨-, h⟩ | ⟨-, h⟩) | rfl) | rfl
  · exact Nat.lt_of_le_of_lt h (by decide)
  · exact Nat.lt_of_le_of_lt h (by decide)
  · decide
  · decide

theorem isAscii_of_continuesName {c : Char} (h : Lexer.continuesName c = true) : IsAscii c := by
  rw [Lexer.continuesName, Bool.or_eq_true] at h
  exact h.elim isAscii_of_startsName isAscii_of_isDigit

/-- What is passed over byte by byte as long as a class of ASCII characters goes on. -/
theorem length_takeWhile_codes {p : Char → Bool} (hp : ∀ c, p c = true → IsAscii c)
    (s : List Char) : ((codes s).takeWhile (·.any p)).length = size (s.takeWhile p) := by
  induction s with
  | nil => rfl
  | cons c s ih =>
    by_cases hc : p c = true
    · have hascii := hp c hc
      simp [codes_cons_of_isAscii hascii, hc, ih, utf8Size_of_isAscii hascii, Nat.add_comm]
    · obtain ⟨rest, hcodes⟩ := exists_codes_cons c s
      simp [hcodes, firstCode_any hp, hc]

/-! ## Names -/

theorem nameSize_codes (s : List Char) :
    nameSize (codes s) =
      if s.head?.any Lexer.startsName then size (s.takeWhile Lexer.continuesName) else 0 := by
  cases s with
  | nil => rfl
  | cons c s =>
    by_cases hc : Lexer.startsName c = true
    · have hascii := isAscii_of_startsName hc
      have hgoes : Lexer.continuesName c = true := by simp [Lexer.continuesName, hc]
      have hrest := length_takeWhile_codes (fun _ => isAscii_of_continuesName) s
      simp [codes_cons_of_isAscii hascii, nameSize, hc, hgoes, hrest, utf8Size_of_isAscii hascii,
        Nat.add_comm]
    · obtain ⟨rest, hcodes⟩ := exists_codes_cons c s
      simp [hcodes, nameSize, firstCode_any (fun _ => isAscii_of_startsName), hc]

/-- The name by offsets is the name by characters. -/
theorem name?_eq_some (s : List Char) : name? s = some (Lexer.name s) := by
  cases s with
  | nil => rfl
  | cons c s =>
    rw [name?, nameSize_codes, Lexer.name]
    by_cases hc : Lexer.startsName c = true
    · have hgoes : Lexer.continuesName c = true := by simp [Lexer.continuesName, hc]
      have hpos := c.utf8Size_pos
      have hcut : cut? (c :: s) (size ((c :: s).takeWhile Lexer.continuesName)) =
          some ((c :: s).takeWhile Lexer.continuesName, (c :: s).dropWhile Lexer.continuesName) :=
        cut?_eq_some_iff.2 ⟨List.takeWhile_append_dropWhile.symm, rfl⟩
      have hne : size ((c :: s).takeWhile Lexer.continuesName) ≠ 0 := by
        simp [hgoes]
        omega
      simp only [List.head?_cons, Option.any_some, hc, if_true, if_neg hne, hcut, Option.map_some]
    · simp [hc]

/-! ## Quoted texts -/

theorem bodyOf_replicate (quote : Char) (n : Nat) (rest : List (Option Char)) :
    bodyOf quote false (List.replicate n none ++ rest) = (bodyOf quote false rest).more n := by
  induction n with
  | zero => rfl
  | succ n ih => simp [List.replicate_succ, bodyOf, ih, Body.more, Nat.add_assoc]

/-- A character that is not special is passed over, however many bytes it has. -/
theorem bodyOf_cons {quote c : Char} (hc : c ≠ '\\') (hquote : c ≠ quote) (s : List Char) :
    bodyOf quote false (codes (c :: s)) = (bodyOf quote false (codes s)).more c.utf8Size := by
  by_cases hascii : IsAscii c
  · simp [codes_cons_of_isAscii hascii, bodyOf, hc, hquote, utf8Size_of_isAscii hascii]
  · rw [codes_cons_of_not_isAscii hascii, bodyOf_replicate]

/-- A backslash takes along the whole character after it, though it takes along one byte only. -/
theorem bodyOf_escaped (quote c : Char) (s : List Char) :
    bodyOf quote true (codes (c :: s)) = (bodyOf quote false (codes s)).more c.utf8Size := by
  by_cases hascii : IsAscii c
  · simp [codes_cons_of_isAscii hascii, bodyOf, utf8Size_of_isAscii hascii]
  · obtain ⟨n, hn⟩ := Nat.exists_eq_succ_of_ne_zero (Nat.ne_of_gt c.utf8Size_pos)
    rw [codes_cons_of_not_isAscii hascii, hn, List.replicate_succ, List.cons_append, bodyOf,
      bodyOf_replicate]
    simp [Body.more, Nat.add_assoc]

/-- A backslash always has something to take along in a text that is closed. -/
theorem ne_of_body? {quote c : Char} {rest : List Char} {parts : List Char × List Char}
    (h : Lexer.body? quote rest = some parts)
    (hstep : ∀ d rest', c = '\\' → rest = d :: rest' → False) : c ≠ '\\' := by
  rintro rfl
  cases rest with
  | nil => cases h
  | cons d rest => exact hstep d rest rfl rfl

/-- A closed text is passed over up to its closing quote. -/
theorem bodyOf_of_body? {quote : Char} {s inside after : List Char} (hquote : quote ≠ '\\')
    (hascii : IsAscii quote) (h : Lexer.body? quote s = some (inside, after)) :
    s = inside ++ quote :: after ∧
      bodyOf quote false (codes s) = ⟨size inside, false, decide ('\\' ∈ inside)⟩ := by
  fun_induction Lexer.body? quote s generalizing inside after with
  | case1 c rest ih =>
    simp only [Option.map_eq_some_iff, Prod.exists, Prod.mk.injEq] at h
    obtain ⟨i, a, hbody, rfl, rfl⟩ := h
    obtain ⟨rfl, hrest⟩ := ih hbody
    refine ⟨rfl, ?_⟩
    have hone : '\\'.utf8Size = 1 := rfl
    rw [codes_cons_of_isAscii (by decide), bodyOf, if_pos rfl, bodyOf_escaped, hrest]
    simp [Body.more, hone]
    omega
  | case2 rest =>
    cases h
    exact ⟨rfl, by simp [codes_cons_of_isAscii hascii, bodyOf, hquote]⟩
  | case3 c rest hstep hc ih =>
    simp only [Option.map_eq_some_iff, Prod.exists, Prod.mk.injEq] at h
    obtain ⟨i, a, hbody, rfl, rfl⟩ := h
    have hne := ne_of_body? hbody hstep
    obtain ⟨rfl, hrest⟩ := ih hbody
    refine ⟨rfl, ?_⟩
    rw [bodyOf_cons hne hc, hrest]
    simp [Body.more, hne.symm]
    omega
  | case4 => cases h

/-- In a text that is not closed the bytes end before there is a closing quote. -/
theorem bodyOf_of_body?_eq_none {quote : Char} {s : List Char}
    (h : Lexer.body? quote s = none) :
    (bodyOf quote false (codes s)).isOpen = true ∨
      (bodyOf quote false (codes s)).size = size s := by
  fun_induction Lexer.body? quote s with
  | case1 c rest ih =>
    have hone : '\\'.utf8Size = 1 := rfl
    rw [codes_cons_of_isAscii (by decide), bodyOf, if_pos rfl, bodyOf_escaped]
    rcases ih (Option.map_eq_none_iff.1 h) with hopen | hsize
    · exact .inl hopen
    · refine .inr ?_
      simp [Body.more, hone, hsize]
      omega
  | case2 rest => cases h
  | case3 c rest hstep hc ih =>
    by_cases hne : c = '\\'
    · subst hne
      cases rest with
      | nil => exact .inl rfl
      | cons d rest => exact absurd rfl (hstep d rest rfl)
    · rw [bodyOf_cons hne hc]
      rcases ih (Option.map_eq_none_iff.1 h) with hopen | hsize
      · exact .inl hopen
      · refine .inr ?_
        simp [Body.more, hsize, Nat.add_comm]
  | case4 => exact .inr rfl

/-- The text in quotes by offsets is the text in quotes by characters. -/
theorem quoted?_eq_some {quote : Char} (hquote : quote ≠ '\\') (hascii : IsAscii quote)
    (s : List Char) : quoted? quote (quote :: s) = some (Lexer.quoted quote s) := by
  have hcodes : codes (quote :: s) = some quote :: codes s := codes_cons_of_isAscii hascii s
  have hone : quote.utf8Size = 1 := utf8Size_of_isAscii hascii
  rw [quoted?, hcodes, List.drop_one, List.tail_cons, Lexer.quoted]
  cases hbody : Lexer.body? quote s with
  | none =>
    rcases bodyOf_of_body?_eq_none hbody with hopen | hsize
    · simp [hopen]
    · simp [hsize]
  | some parts =>
    obtain ⟨inside, after⟩ := parts
    obtain ⟨rfl, hclosed⟩ := bodyOf_of_body? hquote hascii hbody
    have hend : (codes (inside ++ quote :: after))[size inside]? = some (some quote) := by
      rw [codes_append, codes_cons_of_isAscii hascii, ← length_codes]
      simp
    have hcut : cut? (quote :: (inside ++ quote :: after)) (size inside + 2) =
        some (quote :: inside ++ [quote], after) :=
      cut?_eq_some_iff.2 ⟨by simp, by simp [hone]; omega⟩
    have hslice : slice? (quote :: inside ++ [quote]) 1 (size inside + 1) = some inside := by
      have := slice?_append [quote] inside [quote]
      simpa [hone, Nat.add_comm] using this
    have hsub : sub? (size (quote :: inside ++ [quote])) 1 = some (size inside + 1) := by
      simp [sub?, hone]
    simp only [hclosed, List.getElem?_cons_succ, hend, bne_self_eq_false, Bool.or_false,
      Bool.false_eq_true, if_false, hcut, hsub, Option.bind_eq_bind, Option.bind_some, hslice]
    by_cases hescapes : '\\' ∈ inside
    · simp only [hescapes, decide_true, if_true]
      cases Escapes.unescape inside <;> rfl
    · rw [Escapes.unescape_of_not_mem hescapes]
      simp only [hescapes, decide_false, Bool.false_eq_true, if_false]
      rfl

/-! ## Marks -/

/-- The first bytes of a text show whether it starts with some ASCII characters. -/
theorem take_codes_eq_iff {p : List Char} (hp : ∀ c ∈ p, IsAscii c) (s : List Char) :
    (codes s).take p.length = p.map some ↔ ∃ rest, after? p s = some rest := by
  induction p generalizing s with
  | nil => simp [after?]
  | cons c p ih =>
    have hc := hp c List.mem_cons_self
    cases s with
    | nil => simp [after?]
    | cons d s =>
      by_cases hd : IsAscii d
      · by_cases heq : c = d
        · simp [codes_cons_of_isAscii hd, after?, heq,
            ih fun c hc => hp c (List.mem_cons_of_mem _ hc)]
        · simp [codes_cons_of_isAscii hd, after?, heq, Ne.symm heq]
      · obtain ⟨others, hcodes⟩ := exists_codes_cons d s
        have heq : c ≠ d := fun heq => hd (heq ▸ hc)
        simp [hcodes, firstCode_eq_some_iff hc, after?, heq, heq.symm]

theorem isAscii_of_mem_spelling (m : Mark) : ∀ c ∈ m.spelling.toList, IsAscii c := by
  have hall : m.spelling.toList.all (fun c => decide (IsAscii c)) = true := by
    cases m <;> rfl
  exact fun c hc => of_decide_eq_true (List.all_eq_true.1 hall c hc)

/-- The marks of a number of bytes. -/
def marksOf (n : Nat) : List Mark :=
  Mark.all.filter fun m => m.spelling.toList.length == n

/-- A mark that the first bytes show. -/
theorem eq_of_markOf? {n : Nat} {s : List Char} {m : Mark} (h : markOf? n (codes s) = some m) :
    m.spelling.toList.length = n ∧ s = m.spelling.toList ++ s.drop n := by
  have hlength : m.spelling.toList.length = n := by
    have := (List.mem_filter.1 (List.mem_of_find?_eq_some h)).2
    simpa using this
  have htake : (codes s).take n = m.spelling.toList.map some := by
    have := List.find?_some h
    simpa using this
  rw [← hlength] at htake
  obtain ⟨rest, hafter⟩ := (take_codes_eq_iff (isAscii_of_mem_spelling m) s).1 htake
  have hs := Lexer.after?_eq_some_iff.1 hafter
  refine ⟨hlength, ?_⟩
  rw [← hlength, hs, List.drop_left]

theorem size_of_isAscii {p : List Char} (hp : ∀ c ∈ p, IsAscii c) : size p = p.length := by
  induction p with
  | nil => rfl
  | cons c p ih =>
    rw [size_cons, utf8Size_of_isAscii (hp c List.mem_cons_self),
      ih fun c hc => hp c (List.mem_cons_of_mem _ hc), List.length_cons, Nat.add_comm]

theorem from?_of_markOf? {n : Nat} {s : List Char} {m : Mark}
    (h : markOf? n (codes s) = some m) : from? s n = some (s.drop n) := by
  obtain ⟨hlength, hs⟩ := eq_of_markOf? h
  have hsize : size m.spelling.toList = n :=
    (size_of_isAscii (isAscii_of_mem_spelling m)).trans hlength
  have := from?_append m.spelling.toList (s.drop n)
  rwa [hsize, ← hs] at this

/-- Among marks of the same length, the one that the first bytes show is the one that can be
read. -/
theorem findSome?_after? {n : Nat} {marks : List Mark} (s : List Char)
    (h : ∀ m ∈ marks, m.spelling.toList.length = n) :
    (marks.findSome? fun m => (after? m.spelling.toList s).map fun rest => (m, rest)) =
      (marks.find? fun m => (codes s).take n == m.spelling.toList.map some).map
        fun m => (m, s.drop n) := by
  induction marks with
  | nil => rfl
  | cons m marks ih =>
    have hm := h m List.mem_cons_self
    have hiff := take_codes_eq_iff (isAscii_of_mem_spelling m) s
    rw [hm] at hiff
    have hrest := ih fun m hm => h m (List.mem_cons_of_mem _ hm)
    cases hafter : after? m.spelling.toList s with
    | none =>
      have htake : ¬ (codes s).take n = m.spelling.toList.map some := by
        simp [hiff, hafter]
      simp [hafter, htake, hrest]
    | some rest =>
      have htake : (codes s).take n = m.spelling.toList.map some := hiff.2 ⟨rest, hafter⟩
      have hdrop : s.drop n = rest := by
        rw [Lexer.after?_eq_some_iff.1 hafter, ← hm, List.drop_left]
      simp [hafter, htake, hdrop]

theorem all_eq : Mark.all = marksOf 3 ++ (marksOf 2 ++ marksOf 1) := by
  decide

/-- The marks of three bytes are tried first, then those of two and those of one. -/
theorem read?_eq (s : List Char) :
    Mark.read? s =
      ((markOf? 3 (codes s)).map fun m => (m, s.drop 3)).or
        (((markOf? 2 (codes s)).map fun m => (m, s.drop 2)).or
          ((markOf? 1 (codes s)).map fun m => (m, s.drop 1))) := by
  have hlength : ∀ n, ∀ m ∈ marksOf n, m.spelling.toList.length = n := by
    intro n m hm
    simpa using (List.mem_filter.1 hm).2
  rw [Mark.read?, all_eq, List.findSome?_append, List.findSome?_append,
    findSome?_after? s (hlength 3), findSome?_after? s (hlength 2), findSome?_after? s (hlength 1)]
  rfl

/-! ## Tokens -/

/-- The first two bytes show whether a numeral starts. -/
theorem startsNumeral_iff (c : Char) (s : List Char) :
    firstCode c = some '.' ∧ (codes (c :: s))[1]?.any isDigitCode = true ∨
        isDigitCode (firstCode c) = true ↔
      Lexer.startsNumeral (c :: s) = true := by
  have hdigit := @firstCode_any Number.isDigit (fun _ => isAscii_of_isDigit)
  by_cases hpoint : c = '.'
  · subst hpoint
    have hpoint : firstCode '.' = some '.' := rfl
    rw [codes_cons_of_isAscii (by decide), hpoint]
    cases s with
    | nil => decide
    | cons d s =>
      obtain ⟨others, hcodes⟩ := exists_codes_cons d s
      have hno : Number.isDigit '.' = false := rfl
      simp [hcodes, isDigitCode, hdigit, hno, Lexer.startsNumeral]
  · have hfirst : firstCode c ≠ some '.' :=
      fun heq => hpoint ((firstCode_eq_some_iff (by decide)).1 heq)
    simp [hfirst, isDigitCode, hdigit, Lexer.startsNumeral_of_ne hpoint]

/-- A mark of several bytes starts neither a numeral nor a text in quotes. -/
theorem first_of_mark {m : Mark} (h : 2 ≤ m.spelling.toList.length) :
    ∃ c rest, m.spelling.toList = c :: rest ∧ Number.isDigit c = false ∧ c ≠ '.' ∧ c ≠ '\'' ∧
      c ≠ '"' := by
  cases m <;> first
    | exact ⟨_, _, rfl, by decide, by decide, by decide, by decide⟩
    | exact absurd h (by decide)

theorem next_of_markOf? {n : Nat} {s : List Char} {m : Mark} (hn : 2 ≤ n)
    (hm : markOf? n (codes s) = some m) (hread : Mark.read? s = some (m, s.drop n)) :
    Lexer.next s = .ok (.mark m, s.drop n) := by
  obtain ⟨hlength, hs⟩ := eq_of_markOf? hm
  obtain ⟨c, rest, hspelling, hdigit, hpoint, hsingle, hdouble⟩ := first_of_mark (hlength ▸ hn)
  obtain ⟨tail, htail⟩ : ∃ tail, s = c :: tail := ⟨_, hs.trans (by rw [hspelling]; rfl)⟩
  subst htail
  have hnumeral := (Lexer.startsNumeral_of_ne hpoint tail).trans hdigit
  rw [Lexer.next_of_ne hnumeral hsingle hdouble, hread]

/-- The token by offsets is the token by characters. -/
theorem next?_eq_some {s : List Char} (h : s ≠ []) : next? s = some (Lexer.next s) := by
  have hread := read?_eq s
  rw [next?]
  cases hthree : markOf? 3 (codes s) with
  | some m =>
    simp only [hthree, Option.map_some, Option.some_or] at hread
    simp only [from?_of_markOf? hthree, Option.map_some]
    rw [next_of_markOf? (by decide) hthree hread]
  | none =>
  cases htwo : markOf? 2 (codes s) with
  | some m =>
    simp only [hthree, htwo, Option.map_some, Option.map_none, Option.none_or,
      Option.some_or] at hread
    simp only [from?_of_markOf? htwo, Option.map_some]
    rw [next_of_markOf? (by decide) htwo hread]
  | none =>
  simp only [hthree, htwo, Option.map_none, Option.none_or] at hread
  obtain ⟨c, rest, rfl⟩ := List.exists_cons_of_ne_nil h
  have hfirst : (codes (c :: rest))[0]? = some (firstCode c) := by
    obtain ⟨others, hcodes⟩ := exists_codes_cons c rest
    simp [hcodes]
  have hascii : IsAscii '\'' ∧ IsAscii '"' := by decide
  simp only [hfirst, Option.bind_eq_bind, Option.bind_some, startsNumeral_iff,
    firstCode_eq_some_iff hascii.1, firstCode_eq_some_iff hascii.2]
  by_cases hstarts : Lexer.startsNumeral (c :: rest) = true
  · unfold Lexer.next
    rw [if_pos hstarts, if_pos hstarts, number?_eq_some]
  rw [if_neg hstarts]
  by_cases hsingle : c = '\''
  · subst hsingle
    rw [if_pos rfl, quoted?_eq_some (by decide) (by decide), Lexer.next, if_neg hstarts]
  by_cases hdouble : c = '"'
  · subst hdouble
    rw [if_neg hsingle, if_pos rfl, quoted?_eq_some (by decide) (by decide), Lexer.next,
      if_neg hstarts]
  rw [if_neg hsingle, if_neg hdouble,
    Lexer.next_of_ne (Bool.eq_false_iff.2 hstarts) hsingle hdouble, hread]
  cases hone : markOf? 1 (codes (c :: rest)) with
  | some m => simp [from?_of_markOf? hone]
  | none => simp [name?_eq_some]

/-- With enough rounds all cuts of the lexer exist, and it finds the tokens. -/
theorem tokensWithin?_eq_some {rounds : Nat} {s : List Char} (h : s.length < rounds) :
    tokensWithin? rounds s = some (Lexer.tokens s) := by
  induction rounds generalizing s with
  | zero => exact absurd h (Nat.not_lt_zero _)
  | succ rounds ih =>
    rw [tokensWithin?, Lexer.tokens]
    by_cases hempty : (trimStart s).isEmpty
    · rw [if_pos hempty, if_pos hempty]
    · rw [if_neg hempty, if_neg hempty,
        next?_eq_some fun hnil => hempty (List.isEmpty_iff.2 hnil)]
      cases hnext : Lexer.next (trimStart s) with
      | error e => rfl
      | ok found =>
        obtain ⟨t, rest⟩ := found
        have hlength := Nat.lt_of_lt_of_le (Lexer.length_of_next hnext) (length_trimStart_le s)
        have hrest : rest.length < rounds := by omega
        simp [ih hrest]

/-- **Lexing by offsets.** All the cuts that the lexer makes exist, and it finds the tokens of the
text. -/
theorem tokens?_eq_some (s : List Char) : tokens? s = some (Lexer.tokens s) :=
  tokensWithin?_eq_some (Nat.lt_succ_self _)

end Stencil.Offsets
