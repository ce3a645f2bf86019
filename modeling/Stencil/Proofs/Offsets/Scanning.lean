import Stencil.Proofs.Offsets.Basic
import Stencil.Source.Segment

/-!
# Scanning by offsets

The segments of a source, found by a scanner that keeps the offset of a byte and cuts the source at
the offsets of the delimiters. All its cuts exist, and it finds the segments.

* `find?`: the offset of the first occurrence of a text
* `findFragment?`, `segments?`: the scanner
* `segments?_eq_some`: the main statement
-/

namespace Stencil.Offsets

open Stencil.Text

/-! ## The scanner -/

/-- The offset of the first occurrence of a text in another one. -/
def find? (p : List Char) : List Char → Option Nat
  | [] => if p.isEmpty then some 0 else none
  | c :: s => if p.isPrefixOf (c :: s) then some 0 else (find? p s).map (· + c.utf8Size)

/-- A fragment and where it stands. -/
structure Found where
  /-- The offset of its opening delimiter. -/
  start : Nat
  /-- The offset after its closing delimiter. -/
  stop : Nat
  interior : List Char

/-- The first fragment from an offset on, if there is one. No result at all means that the source
was cut at an offset where it cannot be cut, or that there were not enough rounds. -/
def findFragment? (s : List Char) : (rounds : Nat) → (offset : Nat) → Option (Option Found)
  | 0, _ => none
  | rounds + 1, offset => do
    let rest ← from? s offset
    match find? ['<', '%'] rest with
    | none => return none
    | some lead =>
      let start := offset + lead
      let body ← from? s (start + 2)
      match find? ['%', '>'] body with
      | none => return none
      | some inside =>
        let interior ← slice? s (start + 2) (start + 2 + inside)
        if (trim interior).any isLineSeparator then findFragment? s rounds (start + 1)
        else return some ⟨start, start + 2 + inside + 2, trim interior⟩

/-- The segments from an offset on. -/
def segmentsFrom? (s : List Char) : (rounds : Nat) → (offset : Nat) →
    Option (List Source.Segment)
  | 0, _ => none
  | rounds + 1, offset => do
    match ← findFragment? s (s.length + 1) offset with
    | some found =>
      let lead ← slice? s offset found.start
      let others ← segmentsFrom? s rounds found.stop
      return (if lead.isEmpty then [] else [.literal lead]) ++ .fragment found.interior :: others
    | none =>
      let rest ← from? s offset
      return if 2 ≤ unitLength rest then [.literal rest] else []

/-- The segments of a source. -/
def segments? (s : List Char) : Option (List Source.Segment) :=
  segmentsFrom? s (s.length + 1) 0

/-! ## Delimiters -/

/-- Looking for the closing delimiter splits the text there. -/
theorem find?_close (s : List Char) :
    find? ['%', '>'] s = (Source.splitAtClose? s).map (size ·.1) := by
  fun_induction Source.splitAtClose? s with
  | case1 rest => rfl
  | case2 c rest hne ih =>
    have hprefix : ['%', '>'].isPrefixOf (c :: rest) = false := by
      refine Bool.eq_false_iff.2 fun hp => ?_
      obtain ⟨tail, htail⟩ := List.isPrefixOf_iff_prefix.1 hp
      obtain ⟨rfl, rfl⟩ := List.cons.inj htail
      exact hne _ rfl rfl
    rw [find?, hprefix, ih]
    simp [Function.comp_def, Nat.add_comm]
  | case3 => rfl

theorem eq_of_splitAtClose? {s inside after : List Char}
    (h : Source.splitAtClose? s = some (inside, after)) : s = inside ++ '%' :: '>' :: after := by
  fun_induction Source.splitAtClose? s generalizing inside with
  | case1 rest =>
    cases h
    rfl
  | case2 c rest hne ih =>
    simp only [Option.map_eq_some_iff, Prod.exists, Prod.mk.injEq] at h
    obtain ⟨i, a, hsplit, rfl, rfl⟩ := h
    rw [ih hsplit, List.cons_append]
  | case3 => cases h

theorem splitAtClose?_tail {c : Char} {rest : List Char}
    (h : Source.splitAtClose? (c :: rest) = none) : Source.splitAtClose? rest = none := by
  unfold Source.splitAtClose? at h
  split at h
  · cases h
  · rename_i heq
    obtain ⟨rfl, rfl⟩ := List.cons.inj heq
    simpa using h
  · rename_i heq
    cases heq

/-- Where no fragment starts the search goes on after the first character. -/
theorem findFragment?_of_fragmentAt? {c : Char} {rest : List Char}
    (h : Source.fragmentAt? (c :: rest) = none) :
    Source.findFragment? (c :: rest) =
      (Source.findFragment? rest).map fun found => (c :: found.1, found.2) := by
  rw [Source.findFragment?, h]

/-- Without a closing delimiter there is no fragment. -/
theorem findFragment?_of_splitAtClose? {s : List Char} (h : Source.splitAtClose? s = none) :
    Source.findFragment? s = none := by
  induction s with
  | nil => rfl
  | cons c rest ih =>
    have hrest := splitAtClose?_tail h
    have hfragment : Source.fragmentAt? (c :: rest) = none := by
      unfold Source.fragmentAt?
      split
      · rename_i body heq
        obtain ⟨rfl, rfl⟩ := List.cons.inj heq
        rw [splitAtClose?_tail hrest]
      · rfl
    rw [findFragment?_of_fragmentAt? hfragment, ih hrest]
    rfl

/-- The search for a fragment starts at the first opening delimiter. -/
theorem find?_open (s : List Char) :
    (find? ['<', '%'] s = none ∧ Source.findFragment? s = none) ∨
      ∃ lead body, s = lead ++ '<' :: '%' :: body ∧ find? ['<', '%'] s = some (size lead) ∧
        Source.findFragment? s =
          (Source.findFragment? ('<' :: '%' :: body)).map fun found =>
            (lead ++ found.1, found.2) := by
  induction s with
  | nil => exact .inl ⟨rfl, rfl⟩
  | cons c rest ih =>
    by_cases hprefix : ['<', '%'].isPrefixOf (c :: rest)
    · obtain ⟨body, hbody⟩ := List.isPrefixOf_iff_prefix.1 hprefix
      rw [← hbody]
      refine .inr ⟨[], body, rfl, by simp [find?], ?_⟩
      simp
    · have hfragment : Source.fragmentAt? (c :: rest) = none := by
        unfold Source.fragmentAt?
        split
        · rename_i body heq
          rw [heq] at hprefix
          simp at hprefix
        · rfl
      have hfind : find? ['<', '%'] (c :: rest) =
          (find? ['<', '%'] rest).map (· + c.utf8Size) := by
        rw [find?, if_neg hprefix]
      have hsource := findFragment?_of_fragmentAt? hfragment
      rcases ih with ⟨hnone, hmissing⟩ | ⟨lead, body, rfl, hsome, hfound⟩
      · exact .inl ⟨by rw [hfind, hnone]; rfl, by rw [hsource, hmissing]; rfl⟩
      · refine .inr ⟨c :: lead, body, rfl, ?_, ?_⟩
        · rw [hfind, hsome, Option.map_some, size_cons, Nat.add_comm]
        · rw [hsource, hfound, Option.map_map]
          rfl

/-! ## The fragments that are found -/

/-- What stands before a fragment and what stands after it. -/
theorem exists_eq_of_findFragment? {s lead interior after : List Char}
    (h : Source.findFragment? s = some (lead, interior, after)) :
    ∃ middle, s = lead ++ middle ++ after := by
  induction s generalizing lead with
  | nil => cases h
  | cons c rest ih =>
    unfold Source.findFragment? at h
    split at h
    · rename_i hfragment
      cases h
      unfold Source.fragmentAt? at hfragment
      split at hfragment
      · rename_i body heq
        rw [heq]
        split at hfragment
        · rename_i inside after' hsplit
          split at hfragment
          · cases hfragment
          · cases hfragment
            exact ⟨'<' :: '%' :: inside ++ ['%', '>'], by
              simp [eq_of_splitAtClose? hsplit]⟩
        · cases hfragment
      · cases hfragment
    · simp only [Option.map_eq_some_iff, Prod.exists, Prod.mk.injEq] at h
      obtain ⟨lead, interior, after, hfound, rfl, rfl, rfl⟩ := h
      obtain ⟨middle, rfl⟩ := ih hfound
      exact ⟨middle, rfl⟩

/-- Nothing is found at an opening delimiter, or after it, if none closes it. -/
theorem findFragment?_unclosed {body : List Char} (h : Source.splitAtClose? body = none) :
    Source.findFragment? ('<' :: '%' :: body) = none := by
  have hfragment : Source.fragmentAt? ('<' :: '%' :: body) = none := by
    simp [Source.fragmentAt?, h]
  rw [findFragment?_of_fragmentAt? hfragment, findFragment?_of_fragmentAt? rfl,
    findFragment?_of_splitAtClose? h]
  rfl

/-- At an opening delimiter that is closed there is a fragment, or the search goes on after the
first character of the delimiter. -/
theorem findFragment?_closed {body inside after : List Char}
    (h : Source.splitAtClose? body = some (inside, after)) :
    Source.findFragment? ('<' :: '%' :: body) =
      if (trim inside).any isLineSeparator then
        (Source.findFragment? ('%' :: body)).map fun found => ('<' :: found.1, found.2)
      else some ([], trim inside, after) := by
  by_cases hseparator : (trim inside).any isLineSeparator
  · have hfragment : Source.fragmentAt? ('<' :: '%' :: body) = none := by
      simp [Source.fragmentAt?, h, hseparator]
    rw [findFragment?_of_fragmentAt? hfragment, if_pos hseparator]
  · have hfragment : Source.fragmentAt? ('<' :: '%' :: body) = some (trim inside, after) := by
      simp [Source.fragmentAt?, h, hseparator]
    rw [Source.findFragment?, hfragment, if_neg hseparator]

/-- The search by offsets makes all its cuts, and finds what the search by characters finds. -/
theorem findFragment?_append (before s : List Char) {rounds : Nat} (h : s.length < rounds) :
    findFragment? (before ++ s) rounds (size before) =
      some ((Source.findFragment? s).map fun found =>
        ⟨size (before ++ found.1), size (before ++ s) - size found.2.2, found.2.1⟩) := by
  induction rounds generalizing before s with
  | zero => exact absurd h (Nat.not_lt_zero _)
  | succ rounds ih =>
    rw [findFragment?, from?_append]
    rcases find?_open s with ⟨hnone, hmissing⟩ | ⟨lead, body, rfl, hsome, hfound⟩
    · simp [hnone, hmissing]
    have hopened : before ++ (lead ++ '<' :: '%' :: body) =
        (before ++ lead ++ ['<', '%']) ++ body := by
      simp
    have hstart : size before + size lead + 2 = size (before ++ lead ++ ['<', '%']) := by
      simp
      rfl
    simp only [hsome, hstart, Option.bind_eq_bind, Option.bind_some]
    rw [hopened, from?_append, Option.bind_some, find?_close]
    cases hsplit : Source.splitAtClose? body with
    | none => simp [hfound, findFragment?_unclosed hsplit]
    | some parts =>
      obtain ⟨inside, after⟩ := parts
      rw [findFragment?_closed hsplit] at hfound
      obtain rfl := eq_of_splitAtClose? hsplit
      have hslice : slice? (before ++ lead ++ ['<', '%'] ++ (inside ++ '%' :: '>' :: after))
          (size (before ++ lead ++ ['<', '%']))
          (size (before ++ lead ++ ['<', '%']) + size inside) = some inside := by
        rw [← List.append_assoc, ← size_append]
        exact slice?_append _ inside _
      simp only [Option.map_some, hslice, Option.bind_some]
      by_cases hseparator : (trim inside).any isLineSeparator
      · have hnext : before ++ lead ++ ['<', '%'] ++ (inside ++ '%' :: '>' :: after) =
            (before ++ lead ++ ['<']) ++ '%' :: (inside ++ '%' :: '>' :: after) := by
          simp
        have hoffset : size before + size lead + 1 = size (before ++ lead ++ ['<']) := by
          simp
          rfl
        have hlength : ('%' :: (inside ++ '%' :: '>' :: after)).length < rounds := by
          simp at h ⊢
          omega
        rw [if_pos hseparator] at hfound ⊢
        rw [hoffset, hnext, ih _ _ hlength, hfound, Option.map_map, Option.map_map]
        simp [Function.comp_def]
      · have hsizes : '<'.utf8Size = 1 ∧ '%'.utf8Size = 1 ∧ '>'.utf8Size = 1 := ⟨rfl, rfl, rfl⟩
        rw [if_neg hseparator] at hfound ⊢
        rw [hfound]
        simp [hsizes]
        omega

/-! ## All segments -/

theorem segmentsFrom?_append (before s : List Char) {rounds : Nat} (h : s.length < rounds) :
    segmentsFrom? (before ++ s) rounds (size before) = some (Source.segments s) := by
  induction rounds generalizing before s with
  | zero => exact absurd h (Nat.not_lt_zero _)
  | succ rounds ih =>
    have hlength : s.length < (before ++ s).length + 1 := by
      rw [List.length_append]
      omega
    rw [segmentsFrom?, findFragment?_append before s hlength, Source.segments]
    cases hfound : Source.findFragment? s with
    | none => simp
    | some found =>
      obtain ⟨lead, interior, after⟩ := found
      obtain ⟨middle, rfl⟩ := exists_eq_of_findFragment? hfound
      have hlt := Source.length_of_findFragment? hfound
      have hlead : slice? (before ++ (lead ++ middle ++ after)) (size before)
          (size (before ++ lead)) = some lead := by
        rw [← slice?_append before lead (middle ++ after)]
        simp
      have hstop : size (before ++ (lead ++ middle ++ after)) - size after =
          size (before ++ lead ++ middle) := by
        simp
        omega
      have hrest : before ++ (lead ++ middle ++ after) = (before ++ lead ++ middle) ++ after := by
        simp
      simp only [Option.map_some, Option.bind_eq_bind, Option.bind_some, hlead, hstop]
      rw [hrest, ih _ after (by omega)]
      rfl

/-- **Scanning by offsets.** All the cuts that the scanner makes exist, and it finds the segments of
the source. -/
theorem segments?_eq_some (s : List Char) : segments? s = some (Source.segments s) :=
  segmentsFrom?_append [] s (Nat.lt_succ_self _)

end Stencil.Offsets
