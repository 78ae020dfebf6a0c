import SourceMutation.Text.Quoted
import SourceMutation.Value.Real

/-!
# Given values

What a caller may hand over where a setting or an argument is asked for.  Settings are checked
before they are used, and until then a value can be of any sort: nothing, a truth value, an
integer, a real number, a text, a list, or a dictionary with texts as keys.

A value has two written forms.  `Value.quoted` is the form inside lists and error messages, where
texts stand in quotes; `Value.shown` is the form inside sentences, where a text stands bare.
-/

namespace SourceMutation

/-- A value of any sort. -/
inductive Value where
  | none
  | bool (b : Bool)
  | int (n : Int)
  | real (x : Real)
  | text (s : String)
  | list (items : List Value)
  | dict (items : List (String × Value))
  deriving Inhabited

namespace Value

/-- A list of texts. -/
def texts (items : List String) : Value := .list (items.map .text)

/-! ## Written forms -/

mutual

/-- The form of a value inside lists and error messages. -/
def quoted : Value → String
  | .none => "None"
  | .bool b => if b then "True" else "False"
  | .int n => toString n
  | .real x => x.text
  | .text s => Quoted.ofText s
  | .list items => "[" ++ ", ".intercalate (quotedItems items) ++ "]"
  | .dict items => "\x7b" ++ ", ".intercalate (quotedPairs items) ++ "\x7d"

/-- The forms of the items of a list. -/
def quotedItems : List Value → List String
  | [] => []
  | v :: rest => v.quoted :: quotedItems rest

/-- The forms of the items of a dictionary, key first. -/
def quotedPairs : List (String × Value) → List String
  | [] => []
  | (key, v) :: rest => (Quoted.ofText key ++ ": " ++ v.quoted) :: quotedPairs rest

end

/-- The form of a value inside a sentence. -/
def shown : Value → String
  | .text s => s
  | v => v.quoted

/--
The text of a failure that is given values instead of words: nothing, one value, or several of
them in brackets.
-/
def argumentsText : List Value → String
  | [] => ""
  | [v] => v.shown
  | vs => "(" ++ ", ".intercalate (quotedItems vs) ++ ")"

/-! ## Sorts -/

/-- The name of a value's sort. -/
def sortName : Value → String
  | .none => "NoneType"
  | .bool _ => "bool"
  | .int _ => "int"
  | .real _ => "float"
  | .text _ => "str"
  | .list _ => "list"
  | .dict _ => "dict"

/-- Whether a value can be looked up in a table: lists and dictionaries cannot. -/
def canBeKey : Value → Bool
  | .list _ | .dict _ => false
  | _ => true

/-- Whether a value says anything: not nothing, zero, or empty. -/
def isSet : Value → Bool
  | .none => false
  | .bool b => b
  | .int n => n != 0
  | .real x => !x.isZero
  | .text s => !s.isEmpty
  | .list items => !items.isEmpty
  | .dict items => !items.isEmpty

/-- What a value yields when its items are asked for: a text yields its characters, a dictionary
its keys. -/
def items? : Value → Option (List Value)
  | .text s => some (s.toList.map fun c => .text (String.singleton c))
  | .list items => some items
  | .dict items => some (items.map fun item => .text item.1)
  | _ => Option.none

end Value

end SourceMutation
