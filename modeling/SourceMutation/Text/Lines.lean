/-!
# Lines and fields of a text

A text is cut at its line breaks.  Eleven breaks are known: ten characters, and the pair of a
carriage return and a newline, which counts once.  A last line need not end in a break, and a
break at the end of a text starts no further line.

A text is also cut at a separator.  Its fields are the parts between the places where the separator
stands, empty parts included, so that the parts joined by the separator give the text back.
-/

namespace SourceMutation

/-! ## Lines -/

namespace Lines

/-- The characters that end a line. -/
def isBreak (c : Char) : Bool :=
  c == '\n' || c == '\r' || c == '\x0b' || c == '\x0c' || c == '\x1c' || c == '\x1d' ||
    c == '\x1e' || c == '\u0085' || c == '\u2028' || c == '\u2029'

/-- The lines of a text, without their breaks. -/
def split : List Char → List (List Char)
  | [] => []
  | '\r' :: '\n' :: rest => [] :: split rest
  | c :: rest =>
    if isBreak c then [] :: split rest
    else
      match split rest with
      | [] => [[c]]
      | line :: lines =>
        (c :: line) :: lines

/-- How many lines a text has. -/
def count (text : String) : Nat := (split text.toList).length

/-- Whether a text has strictly fewer lines than a limit. -/
def within (text : String) (limit : Int) : Bool := (count text : Int) < limit

end Lines

/-! ## Fields -/

namespace Fields

/-- The fields of a list of characters; there is always at least one. -/
def split (separator : Char) : List Char → List (List Char)
  | [] => [[]]
  | c :: rest =>
    if c = separator then [] :: split separator rest
    else
      match split separator rest with
      | [] => [[c]]
      | field :: fields => (c :: field) :: fields

/-- The fields of a text. -/
def ofText (separator : Char) (text : String) : List String :=
  (split separator text.toList).map String.ofList

end Fields

end SourceMutation
