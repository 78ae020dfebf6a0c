import SourceMutation.Text.Printable
import SourceMutation.Text.Utf8

/-!
# Quoted texts

A text in quotes, on one line.  Single quotes stand around it unless it holds a single quote and
no double one.  The backslash, the quote around the text, newline, carriage return and tab have
short escapes; other characters that are not shown as they are get numeric ones.
-/

namespace SourceMutation.Quoted

/-- The quote that stands around a text. -/
def quoteFor (cs : List Char) : Char :=
  if cs.contains '\'' && !cs.contains '"' then '"' else '\''

/-- One character between quotes. -/
def escape (quote c : Char) : String :=
  if c = quote || c = '\\' then String.ofList ['\\', c]
  else if c = '\n' then "\\n"
  else if c = '\r' then "\\r"
  else if c = '\t' then "\\t"
  else if Printable.isPrintable c then String.singleton c
  else if c.toNat < 0x100 then "\\x" ++ Utf8.hex 2 c.toNat
  else if c.toNat < 0x10000 then "\\u" ++ Utf8.hex 4 c.toNat
  else "\\U" ++ Utf8.hex 8 c.toNat

/-- A text in quotes. -/
def ofText (text : String) : String :=
  let cs := text.toList
  let quote := quoteFor cs
  String.singleton quote ++ String.join (cs.map (escape quote)) ++ String.singleton quote

end SourceMutation.Quoted
