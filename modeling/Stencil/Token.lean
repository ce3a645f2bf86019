/-!
# Tokens

* `Mark`: the operators and the punctuation, each with its spelling
* `Token`: names, texts, numbers and marks
* `Token.description`: how a message names a token
-/

namespace Stencil

/-- An operator or a punctuation mark. -/
inductive Mark where
  | strictEq | strictNe
  | eq | ne | ge | le | and | or | coalesce | increment | decrement
  | plusAssign | minusAssign | timesAssign | divideAssign | remainderAssign
  | plus | minus | times | divide | remainder | not | question | colon | dot | comma | semicolon
  | assign | gt | lt | openParen | closeParen | openBracket | closeBracket | openBrace | closeBrace
  deriving DecidableEq, Repr

namespace Mark

/-- How the mark is written. -/
def spelling : Mark → String
  | strictEq => "==="
  | strictNe => "!=="
  | eq => "=="
  | ne => "!="
  | ge => ">="
  | le => "<="
  | and => "&&"
  | or => "||"
  | coalesce => "??"
  | increment => "++"
  | decrement => "--"
  | plusAssign => "+="
  | minusAssign => "-="
  | timesAssign => "*="
  | divideAssign => "/="
  | remainderAssign => "%="
  | plus => "+"
  | minus => "-"
  | times => "*"
  | divide => "/"
  | remainder => "%"
  | not => "!"
  | question => "?"
  | colon => ":"
  | dot => "."
  | comma => ","
  | semicolon => ";"
  | assign => "="
  | gt => ">"
  | lt => "<"
  | openParen => "("
  | closeParen => ")"
  | openBracket => "["
  | closeBracket => "]"
  | openBrace => "\x7b"
  | closeBrace => "\x7d"

/-- All marks, longer spellings first. -/
def all : List Mark :=
  [strictEq, strictNe,
   eq, ne, ge, le, and, or, coalesce, increment, decrement,
   plusAssign, minusAssign, timesAssign, divideAssign, remainderAssign,
   plus, minus, times, divide, remainder, not, question, colon, dot, comma, semicolon,
   assign, gt, lt, openParen, closeParen, openBracket, closeBracket, openBrace, closeBrace]

/-- Does the mark open or close a block? -/
def isBrace (m : Mark) : Bool :=
  m == openBrace || m == closeBrace

end Mark

/-- A token of a fragment. -/
inductive Token where
  /-- A name. Keywords are names, too. -/
  | name (s : String)
  /-- The text that a quoted literal stands for. -/
  | text (s : String)
  /-- The number that a numeral stands for. -/
  | number (x : Float)
  /-- An operator or a punctuation mark. -/
  | mark (m : Mark)
  deriving DecidableEq

namespace Token

/-- How a message names the token: names and marks are quoted, literals are not shown. -/
def description : Token → String
  | name s => "`" ++ s ++ "`"
  | text _ => "string"
  | number _ => "number"
  | mark m => "`" ++ m.spelling ++ "`"

/-- Does the token open or close a block? -/
def isBrace : Token → Bool
  | mark m => m.isBrace
  | _ => false

end Token

/-! ## Small facts -/

theorem Mark.mem_all (m : Mark) : m ∈ Mark.all := by
  cases m <;> decide

end Stencil
