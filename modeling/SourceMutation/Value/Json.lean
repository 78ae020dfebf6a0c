import SourceMutation.Value

/-!
# Values as JSON

The compact form: no blanks, keys in the order in which they stand, and nothing but ASCII.  A
character that is no printable ASCII is escaped by its UTF-16 units, four hexadecimal digits each;
a few control characters, the quote and the backslash have short escapes.
-/

namespace SourceMutation

namespace Json

/-- The escape of a UTF-16 unit. -/
def unit (n : Nat) : String := "\\u" ++ Utf8.hex 4 n

/-- The escape of a character by its units: two of them beyond the basic plane. -/
def units (c : Char) : String :=
  let n := c.toNat
  if n < 0x10000 then unit n
  else unit (0xD800 + (n - 0x10000) / 0x400) ++ unit (0xDC00 + (n - 0x10000) % 0x400)

/-- A character inside a text. -/
def escape (c : Char) : String :=
  match c with
  | '"' => "\\\""
  | '\\' => "\\\\"
  | '\n' => "\\n"
  | '\r' => "\\r"
  | '\t' => "\\t"
  | '\x08' => "\\b"
  | '\x0c' => "\\f"
  | c => if 0x20 ≤ c.toNat && c.toNat ≤ 0x7E then String.singleton c else units c

/-- A text in quotes. -/
def text (s : String) : String := "\"" ++ String.join (s.toList.map escape) ++ "\""

end Json

namespace Value

mutual

/-- The compact JSON of a value. -/
def json : Value → String
  | .none => "null"
  | .bool b => if b then "true" else "false"
  | .int n => toString n
  | .real x => x.text
  | .text s => Json.text s
  | .list items => "[" ++ ",".intercalate (jsonItems items) ++ "]"
  | .dict items => "\x7b" ++ ",".intercalate (jsonPairs items) ++ "\x7d"

/-- The JSON of the items of a list. -/
def jsonItems : List Value → List String
  | [] => []
  | v :: rest => v.json :: jsonItems rest

/-- The JSON of the items of a dictionary, key first. -/
def jsonPairs : List (String × Value) → List String
  | [] => []
  | (key, v) :: rest => (Json.text key ++ ":" ++ v.json) :: jsonPairs rest

end

end Value

end SourceMutation
