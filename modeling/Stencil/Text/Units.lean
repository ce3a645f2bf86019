/-!
# UTF-16 code units

Lengths, indexes, searches and the order of texts count in UTF-16 code units: a character beyond the
basic plane is two units, a high surrogate and a low one.

* `units`: the units of a character, `encode` those of a text
* `decode`: the text of a unit sequence, with U+FFFD for each surrogate that stands alone
* `before`: the order of two texts, unit by unit
-/

namespace Stencil.Text

/-- The code units of one character. -/
def units (c : Char) : List Nat :=
  if c.toNat < 0x10000 then [c.toNat]
  else [0xD800 + (c.toNat - 0x10000) / 0x400, 0xDC00 + (c.toNat - 0x10000) % 0x400]

/-- The code units of a text. -/
def encode (s : List Char) : List Nat :=
  s.flatMap units

/-- The number of code units of a text. -/
def unitLength (s : List Char) : Nat :=
  (encode s).length

/-- Is the unit the first half of a pair? -/
def isHigh (u : Nat) : Bool :=
  0xD800 ≤ u && u ≤ 0xDBFF

/-- Is the unit the second half of a pair? -/
def isLow (u : Nat) : Bool :=
  0xDC00 ≤ u && u ≤ 0xDFFF

/-- The character that a high and a low surrogate stand for. -/
def ofPair (high low : Nat) : Char :=
  Char.ofNat (0x10000 + (high - 0xD800) * 0x400 + (low - 0xDC00))

/-- The character shown in place of a surrogate that stands alone. -/
def replacement : Char :=
  '\uFFFD'

/-- The text of a sequence of code units. -/
def decode : List Nat → List Char
  | [] => []
  | [u] => [if isHigh u || isLow u then replacement else Char.ofNat u]
  | u :: v :: rest =>
    if isHigh u && isLow v then ofPair u v :: decode rest
    else (if isHigh u || isLow u then replacement else Char.ofNat u) :: decode (v :: rest)

/-- Does the first text come before the second one, comparing unit by unit? -/
def before (s t : List Char) : Bool :=
  decide (encode s < encode t)

/-! ## Small facts -/

theorem encode_append (s t : List Char) : encode (s ++ t) = encode s ++ encode t :=
  List.flatMap_append

end Stencil.Text
