import Stencil.Text.Casing.Table

/-!
# Upper and lower case

* `toUpper`, `toLower`: a text in upper case, and in lower case
* `endsWord`: where a lower case sigma takes its final form
-/

namespace Stencil.Text

/-- The characters that a table of expansions and a table of runs map a character to. -/
def mapCase (expansions : List (Nat × List Nat)) (runs : List CaseRun) (c : Char) : List Char :=
  match expansions.lookup c.toNat with
  | some codes => codes.map Char.ofNat
  | none =>
    match runs.findSome? fun run => run.map? c.toNat with
    | some code => [Char.ofNat code]
    | none => [c]

/-- A character in upper case. -/
def upperChar (c : Char) : List Char :=
  mapCase upperExpansions upperRuns c

/-- A character in lower case. -/
def lowerChar (c : Char) : List Char :=
  mapCase lowerExpansions lowerRuns c

/-- A text in upper case. -/
def toUpper (s : List Char) : List Char :=
  s.flatMap upperChar

/-- Is the first character that counts one with a case? -/
def meetsCased (s : List Char) : Bool :=
  match s.dropWhile fun c => ignorableRanges.contains c.toNat with
  | c :: _ => casedRanges.contains c.toNat
  | [] => false

/-- Does a word end between two texts? The first one is given from its end. -/
def endsWord (before after : List Char) : Bool :=
  meetsCased before && !meetsCased after

/-- The rest of a text in lower case, where the text before it is given from its end. A capital
sigma becomes a final one at the end of a word. -/
def toLowerAfter (before : List Char) : List Char → List Char
  | [] => []
  | c :: rest =>
    (if c = 'Σ' then [if endsWord before rest then 'ς' else 'σ'] else lowerChar c) ++
      toLowerAfter (c :: before) rest

/-- A text in lower case. -/
def toLower (s : List Char) : List Char :=
  toLowerAfter [] s

end Stencil.Text
