import Stencil.Text.Printable

/-!
# Quoted texts

How debug texts show a text: in double quotes, with what is not printable spelled out.

* `quoteChar`: how one character is shown
* `quote`: how a text is shown
-/

namespace Stencil.Text

/-- A code point in braces, in hexadecimal. -/
def codeEscape (c : Char) : List Char :=
  '\\' :: 'u' :: '\x7b' :: Nat.toDigits 16 c.toNat ++ ['\x7d']

/-- How a character is shown between double quotes. -/
def quoteChar (c : Char) : List Char :=
  match c with
  | '\x00' => ['\\', '0']
  | '\t' => ['\\', 't']
  | '\r' => ['\\', 'r']
  | '\n' => ['\\', 'n']
  | '\\' => ['\\', '\\']
  | '"' => ['\\', '"']
  | c => if isPrintable c then [c] else codeEscape c

/-- A text in double quotes. -/
def quote (s : List Char) : List Char :=
  '"' :: s.flatMap quoteChar ++ ['"']

end Stencil.Text
