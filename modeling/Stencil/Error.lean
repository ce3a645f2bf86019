import Stencil.Token
import Stencil.Value

/-!
# Errors

Every way in which reading or running a template fails, as a cause. The text of a message is
computed from the cause.

* `Malformed`: causes found while a template is read, with `Expected` for what would have been right
* `Error`: all causes
* `FormatError`, `Error.ofFormat`: output that is not taken, without a reason
* `Error.kind`, `Error.detail?`, `Error.message`, `Error.source?`: what is shown of them
-/

namespace Stencil

/-- What would have been right in the place of an unexpected token. -/
inductive Expected where
  | mark (m : Mark)
  | identifier
  | expression
  | endOfExpression
  | controlStatement
  deriving DecidableEq, Repr

/-- How a message names what was expected. -/
def Expected.description : Expected → String
  | mark m => (Token.mark m).description
  | identifier => "identifier"
  | expression => "expression"
  | endOfExpression => "end of expression"
  | controlStatement => "control statement"

/-- Why a source is not a template. -/
inductive Malformed where
  /-- A character that starts no token. -/
  | character
  /-- A quoted text without its closing quote. -/
  | openText
  /-- A numeral that ends with an underscore. -/
  | trailingUnderscore
  /-- A decimal numeral with an exponent that has no digits. -/
  | number
  /-- A numeral in another base without digits or with a digit too great. -/
  | integer
  /-- Expressions or blocks are nested too deeply. -/
  | tooDeep
  /-- A token, or the end of the fragment, where something else should stand. -/
  | unexpected (found : Option Token) (expected : Expected)
  /-- A token that no expression starts with. -/
  | noOperand (found : Token)
  /-- A reserved word used as a variable. -/
  | keyword (name : String)
  /-- A reserved word in the place of a name to bind. -/
  | boundKeyword (name : String)
  /-- An assignment to something that is not a variable. -/
  | assignmentTarget
  /-- An increment or a decrement of something that is not a variable. -/
  | updateTarget
  /-- A constant declared without a value. -/
  | bareConstant
  /-- An alternative without a conditional directly before it. -/
  | strayElse
  /-- The end of a block that was not opened. -/
  | strayClose
  /-- A block that is still open at the end of the template. -/
  | openBlock
  deriving DecidableEq

/-- What a message says about a malformed source. -/
def Malformed.description : Malformed → String
  | character => "unexpected character"
  | openText => "unexpected end of string"
  | trailingUnderscore => "'_' may not occur at end of number"
  | number => "invalid number"
  | integer => "invalid integer"
  | tooDeep => "template exceeds maximum recursion limits"
  | unexpected found expected =>
    "unexpected " ++ (found.map Token.description).getD "end of input" ++
      ", expected " ++ expected.description
  | noOperand found => "unexpected " ++ found.description
  | keyword name => "unexpected keyword " ++ (Token.name name).description
  | boundKeyword name =>
    "unexpected keyword " ++ (Token.name name).description ++ ", expected identifier"
  | assignmentTarget => "invalid assignment target"
  | updateTarget => "invalid operand for increment or decrement"
  | bareConstant => "missing initializer in const declaration"
  | strayElse => "unexpected `else`"
  | strayClose => "unexpected " ++ (Token.mark .closeBrace).description
  | openBlock =>
    "unexpected end of template, expected " ++ (Token.mark .closeBrace).description ++
      " to close block"

/-- The kinds of errors. -/
inductive ErrorKind where
  | malformed | escape | unbound | operation | serialization | output | fuel
  deriving DecidableEq, Repr

/-- The name of a kind in debug texts. -/
def ErrorKind.name : ErrorKind → String
  | malformed => "SyntaxError"
  | escape => "BadEscape"
  | unbound => "UndefinedError"
  | operation => "InvalidOperation"
  | serialization => "BadSerialization"
  | output => "WriteFailure"
  | fuel => "OutOfFuel"

/-- What a message says first. -/
def ErrorKind.description : ErrorKind → String
  | malformed => "syntax error"
  | escape => "bad string escape"
  | unbound => "undefined variable"
  | operation => "invalid operation"
  | serialization => "could not serialize to internal format"
  | output => "failed to write output"
  | fuel => "engine ran out of fuel"

/-- Why something failed. -/
inductive Error where
  /-- The source is not a template. -/
  | malformed (cause : Malformed)
  /-- A quoted text with an escape that stands for nothing. -/
  | escape
  /-- A quoted text with an octal escape. -/
  | octalEscape
  /-- A variable without a value. -/
  | unbound (name : String)
  /-- An assignment to a constant. -/
  | constant (name : String)
  /-- A property of nothing: of `null` or `undefined`, as the text says. -/
  | propertyOfNothing (text name : String)
  /-- A loop over the values of something that has none. -/
  | notIterable (kind : Kind)
  /-- A call of an expression whose value is no function. -/
  | notCallable (callee : String)
  /-- A call of a value that is no function. -/
  | noFunction (kind : Kind)
  /-- A function of the host failed. -/
  | host (kind : ErrorKind) (detail : Option String)
  /-- Data that has no counterpart among the values, for the reason that their library gives. -/
  | unconvertible (reason : String)
  /-- A context that is not made of named values. -/
  | contextNotMap (kind : Kind)
  /-- The output is not taken, for a reason that is not known. -/
  | formatting
  /-- The writer that the output goes to does not take it, for the reason it gives. -/
  | output (reason : String)
  /-- The fuel is used up. -/
  | outOfFuel
  deriving DecidableEq

/-- A chunk of output is not taken. It does not say why. -/
structure FormatError where
  deriving DecidableEq

namespace Error

/-- What stops a run whose output is not taken. -/
def ofFormat (_ : FormatError) : Error :=
  formatting

/-- The kind of an error. -/
def kind : Error → ErrorKind
  | malformed _ => .malformed
  | escape | octalEscape => .escape
  | unbound _ => .unbound
  | constant _ | propertyOfNothing .. | notIterable _ | notCallable _ | noFunction _ => .operation
  | host kind _ => kind
  | unconvertible _ | contextNotMap _ => .serialization
  | formatting | output _ => .output
  | outOfFuel => .fuel

/-- What a message adds to the description of the kind. -/
def detail? : Error → Option String
  | malformed cause => some cause.description
  | escape => none
  | octalEscape => some "octal escape sequences are not allowed"
  | unbound name => some ((Token.name name).description ++ " is not defined")
  | constant name => some ("assignment to constant variable " ++ (Token.name name).description)
  | propertyOfNothing text name =>
    some ("cannot read properties of " ++ text ++ " (reading '" ++ name ++ "')")
  | notIterable kind => some (kind.name ++ " is not iterable")
  | notCallable callee => some ("`" ++ callee ++ "` is not a function")
  | noFunction kind => some (kind.name ++ " is not a function")
  | host _ detail => detail
  | unconvertible _ => some "unable to convert value for the template engine"
  | contextNotMap kind => some ("context must be a map, got " ++ kind.name)
  | formatting => some "formatting failed"
  | output _ => some "I/O error during rendering"
  | outOfFuel => none

/-- The text of the error. -/
def message (e : Error) : String :=
  match e.detail? with
  | some detail => e.kind.description ++ ": " ++ detail
  | none => e.kind.description

/-- The text of the failure behind the error, where there is one. -/
def source? : Error → Option String
  | output reason | unconvertible reason => some reason
  | _ => none

end Error

end Stencil
