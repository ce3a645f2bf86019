import Stencil.Text.Blank
import Stencil.Text.Units

/-!
# Segments of a source

A source is literal text with fragments in between. A fragment is opened by `<%`, closed by the next
`%>`, and never spans a line separator or a paragraph separator.

* `Segment`: literal text or the trimmed interior of a fragment
* `fragmentAt?`: the fragment that starts right here
* `findFragment?`: the first fragment of a text, with what stands before it and after it
* `segments`: the whole source
-/

namespace Stencil.Source

open Stencil.Text

/-- A piece of a source. -/
inductive Segment where
  /-- Text that is written as it is. -/
  | literal (text : List Char)
  /-- What stands between the two delimiters of a fragment, without the blanks around it. -/
  | fragment (interior : List Char)
  deriving DecidableEq, Repr

/-- Splits a text at its first `%>`. -/
def splitAtClose? : List Char → Option (List Char × List Char)
  | '%' :: '>' :: rest => some ([], rest)
  | c :: rest => (splitAtClose? rest).map fun (inside, after) => (c :: inside, after)
  | [] => none

/-- The interior of the fragment that starts at the beginning of the text, and the text after it. -/
def fragmentAt? : List Char → Option (List Char × List Char)
  | '<' :: '%' :: body =>
    match splitAtClose? body with
    | some (inside, after) =>
      if (trim inside).any isLineSeparator then none else some (trim inside, after)
    | none => none
  | _ => none

/-- The text before the first fragment, its interior, and the text after it. -/
def findFragment? : List Char → Option (List Char × List Char × List Char)
  | [] => none
  | c :: rest =>
    match fragmentAt? (c :: rest) with
    | some (interior, after) => some ([], interior, after)
    | none => (findFragment? rest).map fun (lead, found) => (c :: lead, found)

/-! ## The rest gets shorter -/

theorem length_of_splitAtClose? {s inside after : List Char}
    (h : splitAtClose? s = some (inside, after)) : after.length < s.length := by
  fun_induction splitAtClose? s generalizing inside after with
  | case1 rest =>
    simp only [Option.some.injEq, Prod.mk.injEq] at h
    simp only [← h.2, List.length_cons]
    omega
  | case2 c rest _ ih =>
    simp only [Option.map_eq_some_iff, Prod.mk.injEq, Prod.exists] at h
    obtain ⟨i, a, h, _, rfl⟩ := h
    have := ih h
    simp only [List.length_cons]
    omega
  | case3 => simp at h

theorem length_of_fragmentAt? {s interior after : List Char}
    (h : fragmentAt? s = some (interior, after)) : after.length < s.length := by
  unfold fragmentAt? at h
  split at h
  · split at h
    · rename_i hs
      split at h
      · simp at h
      · simp only [Option.some.injEq, Prod.mk.injEq] at h
        have := length_of_splitAtClose? hs
        simp only [← h.2, List.length_cons]
        omega
    · simp at h
  · simp at h

theorem length_of_findFragment? {s lead interior after : List Char}
    (h : findFragment? s = some (lead, interior, after)) : after.length < s.length := by
  induction s generalizing lead with
  | nil => simp [findFragment?] at h
  | cons c rest ih =>
    unfold findFragment? at h
    split at h
    · rename_i hf
      simp only [Option.some.injEq, Prod.mk.injEq] at h
      rw [← h.2.2]
      exact length_of_fragmentAt? hf
    · simp only [Option.map_eq_some_iff, Prod.mk.injEq, Prod.exists] at h
      obtain ⟨l, i, a, h, _, rfl, rfl⟩ := h
      exact Nat.lt_succ_of_lt (ih h)

/-! ## The whole source -/

/-- The segments of a source, in order. Text before a fragment is a segment if there is any; text
after the last one only if it is two code units long or longer. -/
def segments (s : List Char) : List Segment :=
  match h : findFragment? s with
  | some (lead, interior, after) =>
    (if lead.isEmpty then [] else [.literal lead]) ++ .fragment interior :: segments after
  | none => if 2 ≤ unitLength s then [.literal s] else []
termination_by s.length
decreasing_by exact length_of_findFragment? h

end Stencil.Source
