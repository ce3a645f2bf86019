/-!
# Escaping for HTML

The five characters that mean something in markup are written as numeric character references, so
that a text can stand inside an element or an attribute.

* `isSpecial`: the five characters
* `escape`: a text with each of them written as a reference
-/

namespace Stencil.Html

/-- A character that markup gives a meaning: a quote of either kind, an ampersand, an angle
bracket. -/
def isSpecial (c : Char) : Bool :=
  c == '"' || c == '&' || c == '\'' || c == '<' || c == '>'

/-- The numeric reference to a character: its code point in decimal between an ampersand with a hash
and a semicolon. -/
def reference (c : Char) : List Char :=
  '&' :: '#' :: Nat.toDigits 10 c.toNat ++ [';']

/-- How one character is written. -/
def escapeChar (c : Char) : List Char :=
  if isSpecial c then reference c else [c]

/-- A text with every special character written as a reference. -/
def escape (s : List Char) : List Char :=
  s.flatMap escapeChar

/-- The escaped form of a string. -/
def escapeString (s : String) : String :=
  String.ofList (escape s.toList)

end Stencil.Html
