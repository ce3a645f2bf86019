import Stencil.Text.Blank

/-!
# Normal form of a template source

Line breaks and indentation are formatting: they are removed from a source before it is read.

* `normalize`: the source without line breaks and without runs of blanks
* `normalizeString`: the same on strings
-/

namespace Stencil.Source

open Stencil.Text

/-- Removes newlines, carriage returns and every run of two or more blanks. A newline goes on its
own before it can start a run, so a single blank after it stays. -/
def normalize : List Char → List Char
  | [] => []
  | c :: rest =>
    if c = '\n' then normalize rest
    else if isBlank c && rest.head?.any isBlank then normalize (trimStart rest)
    else if c = '\r' then normalize rest
    else c :: normalize rest
termination_by s => s.length
decreasing_by
  · simp
  · exact Nat.lt_succ_of_le (length_trimStart_le rest)
  · simp
  · simp

/-- The normal form of a source string. -/
def normalizeString (source : String) : String :=
  String.ofList (normalize source.toList)

end Stencil.Source
