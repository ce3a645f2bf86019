import Stencil.Number.Written
import Stencil.Text.Quoted
import Stencil.Value

/-!
# Values as text

* `Value.chars`, `Value.text`: the text of a value
* `Value.pieces`: the texts that are written for a value, which make up its text
* `Value.debug`, `Value.debugEntries`: the text that shows how a value is made up
-/

namespace Stencil

namespace Value

mutual

/-- The text of a value. The items of an array have commas between them. -/
def chars : Value → List Char
  | undefined => "undefined".toList
  | null => "null".toList
  | bool b => (if b then "true" else "false").toList
  | number x => Number.plain.write x
  | string s => s.toList
  | array _ items => [','].intercalate (itemChars items)
  | object .. => "[object Object]".toList
  | function f => "function ".toList ++ f.name.toList ++ "() \x7b [native code] \x7d".toList

/-- The texts of the items of an array. Items that are nothing are empty. -/
def itemChars : List Value → List (List Char)
  | [] => []
  | v :: rest => (if v.isNullish then [] else chars v) :: itemChars rest

end

/-- The text of a value, as a string. -/
def text (v : Value) : String :=
  String.ofList v.chars

theorem chars_array (id : Ref) (items : List Value) :
    (array id items).chars = [','].intercalate (itemChars items) :=
  rfl

theorem chars_function (f : Function) :
    (function f).chars =
      "function ".toList ++ f.name.toList ++ "() \x7b [native code] \x7d".toList :=
  rfl

/-! ## Pieces -/

mutual

/-- The texts that are written for a value, one after the other. -/
def pieces : Value → List String
  | array _ items => itemPieces items
  | function f => ["function ", f.name, "() \x7b [native code] \x7d"]
  | v => [v.text]

/-- The texts that are written for the items of an array. Nothing is written for items that are
nothing, but for the commas between them. -/
def itemPieces : List Value → List String
  | [] => []
  | v :: rest =>
    (if v.isNullish then [] else pieces v) ++
      (if rest.isEmpty then [] else "," :: itemPieces rest)

end

/-- What is written for a value is its text. -/
theorem flatMap_pieces :
    (∀ v : Value, v.pieces.flatMap String.toList = v.chars) ∧
      ∀ items : List Value,
        (itemPieces items).flatMap String.toList = [','].intercalate (itemChars items) := by
  refine pieces.mutual_induct _ _ ?array ?function ?other ?nil ?cons
  case array =>
    intro _ items ih
    rw [pieces, chars_array, ih]
  case function =>
    intro f
    rw [pieces, chars_function]
    simp only [List.flatMap_cons, List.flatMap_nil, List.append_nil, List.append_assoc]
  case other =>
    intro v harray hfunction
    rw [pieces, text, List.flatMap_cons, List.flatMap_nil, List.append_nil, String.toList_ofList]
    all_goals assumption
  case nil => rfl
  case cons =>
    intro v rest ih ihrest
    have hv : (if v.isNullish then [] else v.pieces).flatMap String.toList =
        if v.isNullish then [] else v.chars := by
      split
      · rfl
      · exact ih
    rw [itemPieces, List.flatMap_append, hv, itemChars]
    cases rest with
    | nil => exact (List.append_nil _).trans (List.append_nil _).symm
    | cons v' rest =>
      rw [List.isEmpty_cons, if_neg Bool.false_ne_true, List.flatMap_cons, ihrest]
      rfl

/-! ## Debug texts -/

mutual

/-- The text that shows how a value is made up. -/
def debugChars : Value → List Char
  | undefined => "undefined".toList
  | null => "null".toList
  | bool b => (if b then "true" else "false").toList
  | number x => Number.plain.write x
  | string s => Text.quote s.toList
  | array _ items => '[' :: ", ".toList.intercalate (debugItems items) ++ [']']
  | object _ entries => '\x7b' :: ", ".toList.intercalate (debugFields entries) ++ ['\x7d']
  | function f => "<function ".toList ++ f.name.toList ++ ['>']

/-- The debug texts of the items of an array. -/
def debugItems : List Value → List (List Char)
  | [] => []
  | v :: rest => debugChars v :: debugItems rest

/-- The debug texts of the entries of an object. -/
def debugFields : List (String × Value) → List (List Char)
  | [] => []
  | (name, v) :: rest => (Text.quote name.toList ++ ": ".toList ++ debugChars v) :: debugFields rest

end

/-- The debug text of a value, as a string. -/
def debug (v : Value) : String :=
  String.ofList v.debugChars

/-- The debug text of some entries. -/
def debugEntries (entries : List (String × Value)) : String :=
  String.ofList ('\x7b' :: ", ".toList.intercalate (debugFields entries) ++ ['\x7d'])

end Value

end Stencil
