import Mathlib.Data.List.DropRight
import Stencil.Proofs.Lexing.Spelling

/-!
# How far tokens reach

A name or a mark is the longest beginning of a text that is one. A text in quotes ends at the first
of its quotes that is not escaped, and a character is escaped if an odd number of backslashes stands
directly before it.

* `IsLongest`: the longest beginning of a kind
* `isLongest_takeWhile`, `read?_eq_some_iff`: names and marks
* `IsQuotedBody`, `body?_eq_some_iff`: the body of a text in quotes, and where it ends
-/

namespace Stencil

/-! ## Longest beginnings -/

/-- The word is the longest beginning of a text that is of the kind. The other list follows it in
the text. -/
structure IsLongest (kind : List Char → Prop) (word after : List Char) : Prop where
  isKind : kind word
  longest : ∀ other, other <+: word ++ after → kind other → other.length ≤ word.length

section

variable {kind : List Char → Prop} {word after word' after' : List Char}

/-- No two words are the longest beginning of one text. -/
theorem IsLongest.unique (h : IsLongest kind word after) (h' : IsLongest kind word' after')
    (heq : word ++ after = word' ++ after') : word = word' ∧ after = after' := by
  have hle : word'.length ≤ word.length :=
    h.longest word' (heq ▸ List.prefix_append word' after') h'.isKind
  have hge : word.length ≤ word'.length :=
    h'.longest word (heq ▸ List.prefix_append word after) h.isKind
  exact List.append_inj heq (Nat.le_antisymm hge hle)

end

namespace Lexer

open Stencil.Text

variable {s after rest : List Char}

/-! ## Names -/

/-- A name: a character that names start with, and characters that they go on with. -/
def IsName (word : List Char) : Prop :=
  ∃ c rest, word = c :: rest ∧ IsNameStart c ∧ ∀ d ∈ rest, IsNamePart d

theorem IsName.continuesName {word : List Char} (h : IsName word) :
    ∀ c ∈ word, continuesName c = true := by
  obtain ⟨c, rest, rfl, hc, hrest⟩ := h
  refine List.forall_mem_cons.2 ⟨?_, fun d hd => continuesName_iff.2 (hrest d hd)⟩
  exact continuesName_iff.2 (isNamePart_of_isNameStart hc)

/-- Names reach as far as they go on. -/
theorem isLongest_takeWhile {c : Char} (hc : startsName c = true) (s : List Char) :
    IsLongest IsName ((c :: s).takeWhile continuesName) ((c :: s).dropWhile continuesName) := by
  have hstart := startsName_iff.1 hc
  have hgoes := continuesName_iff.2 (isNamePart_of_isNameStart hstart)
  constructor
  case isKind =>
    rw [List.takeWhile_cons_of_pos hgoes]
    refine ⟨c, _, rfl, hstart, fun d hd => continuesName_iff.1 ?_⟩
    exact List.all_eq_true.1 List.all_takeWhile d hd
  case longest =>
    intro other hother hname
    rw [List.takeWhile_append_dropWhile] at hother
    obtain ⟨tail, htail⟩ := hother
    rw [← htail, List.takeWhile_append_of_pos hname.continuesName, List.length_append]
    exact Nat.le_add_right ..

/-! ## Marks -/

/-- The spelling of a mark. -/
def IsSpelling (word : List Char) : Prop :=
  ∃ m : Mark, word = m.spelling.toList

theorem spelling_injective {m n : Mark} (h : m.spelling.toList = n.spelling.toList) : m = n := by
  have hm := read?_spelling m
  rw [h, read?_spelling n] at hm
  cases hm
  rfl

/-- Longer spellings come first among the marks. -/
theorem pairwise_length_spelling :
    Mark.all.Pairwise fun m n => n.spelling.toList.length ≤ m.spelling.toList.length := by
  decide

/-- A mark that is read is the longest one that the text begins with. -/
theorem isLongest_of_read? {m : Mark} (h : Mark.read? s = some (m, rest)) :
    s = m.spelling.toList ++ rest ∧ IsLongest IsSpelling m.spelling.toList rest := by
  obtain ⟨before, n, behind, hall, hn, hnone⟩ := List.findSome?_eq_some_iff.1 h
  obtain ⟨tail, hafter, hpair⟩ := Option.map_eq_some_iff.1 hn
  cases hpair
  obtain rfl := after?_eq_some_iff.1 hafter
  refine ⟨rfl, ⟨m, rfl⟩, ?_⟩
  rintro - ⟨tail, htail⟩ ⟨n, rfl⟩
  have hpairwise := pairwise_length_spelling
  have hmem := Mark.mem_all n
  rw [hall] at hpairwise hmem
  rcases List.mem_append.1 hmem with hmem | hmem
  · -- what comes before in the list does not begin the text
    have hread := hnone n hmem
    rw [after?_eq_some_iff.2 htail.symm] at hread
    cases hread
  · rcases List.mem_cons.1 hmem with rfl | hmem
    · exact Nat.le_refl _
    · have hbehind := List.pairwise_cons.1 (List.pairwise_append.1 hpairwise).2.1
      exact hbehind.1 n hmem

/-- The longest mark that a text begins with is read. -/
theorem read?_eq_some_iff {m : Mark} :
    Mark.read? s = some (m, rest) ↔
      s = m.spelling.toList ++ rest ∧ IsLongest IsSpelling m.spelling.toList rest := by
  refine ⟨isLongest_of_read?, ?_⟩
  rintro ⟨rfl, hlongest⟩
  cases hread : Mark.read? (m.spelling.toList ++ rest) with
  | none =>
    have hnone := List.findSome?_eq_none_iff.1 hread m (Mark.mem_all m)
    rw [after?_eq_some_iff.2 rfl] at hnone
    cases hnone
  | some found =>
    obtain ⟨heq, hfound⟩ := isLongest_of_read? hread
    obtain ⟨hspelling, hrest⟩ := hlongest.unique hfound heq
    rw [spelling_injective hspelling, hrest]

/-- No mark is read if no spelling begins the text. -/
theorem read?_eq_none_iff :
    Mark.read? s = none ↔ ∀ word, IsSpelling word → ¬ word <+: s := by
  rw [Mark.read?, List.findSome?_eq_none_iff]
  constructor
  · rintro h - ⟨m, rfl⟩ ⟨tail, htail⟩
    have hnone := h m (Mark.mem_all m)
    rw [after?_eq_some_iff.2 htail.symm] at hnone
    cases hnone
  · intro h m _
    refine Option.map_eq_none_iff.2 (Option.eq_none_iff_forall_ne_some.2 fun tail htail => ?_)
    exact h _ ⟨m, rfl⟩ ⟨tail, (after?_eq_some_iff.1 htail).symm⟩

/-! ## Texts in quotes -/

/-- What stands behind the characters is escaped: an odd number of backslashes stands directly
before it. -/
def IsEscaped (front : List Char) : Prop :=
  Odd (front.rtakeWhile (· == '\\')).length

/-- The body of a text in quotes: the first of these quotes that is not escaped stands behind it. -/
structure IsQuotedBody (quote : Char) (body : List Char) : Prop where
  closed : ¬ IsEscaped body
  first : ∀ front rest, body = front ++ quote :: rest → IsEscaped front

theorem length_rtakeWhile_cons (p : Char → Bool) (c : Char) (front : List Char) :
    ((c :: front).rtakeWhile p).length =
      (front.rtakeWhile p).length + if (c :: front).all p then 1 else 0 := by
  induction front using List.reverseRecOn with
  | nil => by_cases hc : p c <;> simp [List.rtakeWhile, hc]
  | append_singleton front d ih =>
    by_cases hd : p d
    · have hall : (c :: (front ++ [d])).all p = (c :: front).all p := by simp [hd]
      rw [← List.cons_append, List.rtakeWhile_concat_pos _ _ _ hd,
        List.rtakeWhile_concat_pos _ _ _ hd, List.length_append, List.length_append, ih,
        List.cons_append, hall]
      omega
    · have hall : (c :: (front ++ [d])).all p = false := by simp [hd]
      rw [hall, ← List.cons_append, List.rtakeWhile_concat_neg _ _ _ hd,
        List.rtakeWhile_concat_neg _ _ _ hd]
      rfl

theorem isEscaped_cons {c : Char} (hc : c ≠ '\\') (front : List Char) :
    IsEscaped (c :: front) ↔ IsEscaped front := by
  simp [IsEscaped, length_rtakeWhile_cons, hc]

/-- A backslash and the character after it change nothing for what comes later. -/
theorem isEscaped_pair (c : Char) (front : List Char) :
    IsEscaped ('\\' :: c :: front) ↔ IsEscaped front := by
  rw [IsEscaped, IsEscaped, length_rtakeWhile_cons, length_rtakeWhile_cons]
  by_cases hall : (c :: front).all (· == '\\') = true
  · simp [hall, Nat.odd_add_one]
  · simp [hall]

theorem not_isEscaped_nil : ¬ IsEscaped [] := by
  simp [IsEscaped]

theorem isEscaped_backslash : IsEscaped ['\\'] := by
  simp [IsEscaped, List.rtakeWhile]

theorem isQuotedBody_nil (quote : Char) : IsQuotedBody quote [] :=
  ⟨not_isEscaped_nil, fun front rest h => by cases front <;> cases h⟩

theorem isQuotedBody_cons_iff {quote c : Char} (hc : c ≠ '\\') (body : List Char) :
    IsQuotedBody quote (c :: body) ↔ c ≠ quote ∧ IsQuotedBody quote body := by
  constructor
  · intro h
    refine ⟨?_, (isEscaped_cons hc body).not.1 h.closed, fun front rest hbody => ?_⟩
    · rintro rfl
      exact not_isEscaped_nil (h.first [] body rfl)
    · exact (isEscaped_cons hc front).1 (h.first (c :: front) rest (by rw [hbody]; rfl))
  · rintro ⟨hne, h⟩
    refine ⟨(isEscaped_cons hc body).not.2 h.closed, fun front rest hbody => ?_⟩
    cases front with
    | nil => exact absurd (List.cons.inj hbody).1 hne
    | cons d front =>
      cases hbody
      exact (isEscaped_cons hc front).2 (h.first front rest rfl)

theorem isQuotedBody_pair_iff {quote : Char} (hquote : quote ≠ '\\') (c : Char) (body : List Char) :
    IsQuotedBody quote ('\\' :: c :: body) ↔ IsQuotedBody quote body := by
  constructor
  · intro h
    refine ⟨(isEscaped_pair c body).not.1 h.closed, fun front rest hbody => ?_⟩
    exact (isEscaped_pair c front).1 (h.first ('\\' :: c :: front) rest (by rw [hbody]; rfl))
  · intro h
    refine ⟨(isEscaped_pair c body).not.2 h.closed, fun front rest hbody => ?_⟩
    match front with
    | [] => exact absurd (List.cons.inj hbody).1.symm hquote
    | [d] =>
      cases hbody
      exact isEscaped_backslash
    | d :: e :: front =>
      cases hbody
      exact (isEscaped_pair c front).2 (h.first front rest rfl)

/-- A text in quotes is closed by the first of its quotes that is not escaped. -/
theorem body?_eq_some_iff {quote : Char} (hquote : quote ≠ '\\') {inside : List Char} :
    body? quote s = some (inside, after) ↔
      s = inside ++ quote :: after ∧ IsQuotedBody quote inside := by
  fun_induction body? quote s generalizing inside with
  | case1 c rest ih =>
    constructor
    · intro h
      obtain ⟨⟨inside', after'⟩, hbody, hpair⟩ := Option.map_eq_some_iff.1 h
      cases hpair
      obtain ⟨rfl, hinside⟩ := ih.1 hbody
      exact ⟨rfl, (isQuotedBody_pair_iff hquote c inside').2 hinside⟩
    · rintro ⟨hs, hinside⟩
      rcases inside with - | ⟨d, - | ⟨e, inside⟩⟩
      · exact absurd (List.cons.inj hs).1.symm hquote
      · cases hs
        exact absurd isEscaped_backslash hinside.closed
      · cases hs
        rw [ih.2 ⟨rfl, (isQuotedBody_pair_iff hquote c inside).1 hinside⟩]
        rfl
  | case2 rest =>
    constructor
    · rintro ⟨⟩
      exact ⟨rfl, isQuotedBody_nil quote⟩
    · rintro ⟨hs, hinside⟩
      cases inside with
      | nil =>
        cases hs
        rfl
      | cons d inside =>
        cases hs
        exact absurd rfl ((isQuotedBody_cons_iff hquote inside).1 hinside).1
  | case3 c rest hpair hc ih =>
    -- a backslash that takes no character along is the last character
    have hne {front behind : List Char} (hrest : rest = front ++ quote :: behind) : c ≠ '\\' := by
      rintro rfl
      cases front <;> exact hpair _ _ rfl hrest
    constructor
    · intro h
      obtain ⟨⟨inside', after'⟩, hbody, hcons⟩ := Option.map_eq_some_iff.1 h
      cases hcons
      obtain ⟨hrest, hinside⟩ := ih.1 hbody
      exact ⟨congrArg (c :: ·) hrest, (isQuotedBody_cons_iff (hne hrest) inside').2 ⟨hc, hinside⟩⟩
    · rintro ⟨hs, hinside⟩
      cases inside with
      | nil => exact absurd (List.cons.inj hs).1 hc
      | cons d inside =>
        cases hs
        rw [ih.2 ⟨rfl, ((isQuotedBody_cons_iff (hne rfl) inside).1 hinside).2⟩]
        rfl
  | case4 => simp

example : body? '\'' "a\\\\'b'".toList = some ("a\\\\".toList, "b'".toList) := by
  rfl

end Lexer

end Stencil
