import SourceMutation.Text.Numeral

/-!
# Templates

A text with fields to be filled in.  A field stands in braces: its name, perhaps an exclamation mark
and a character that says how it is converted, and perhaps a colon and a layout.  A point or an
opening square bracket in a name starts what is asked of the field's value.  A brace that is text is
written twice.

Only fields with names can be filled in; a field without one, or with a number, has a position, and
there is nothing to take positions from.
-/

namespace SourceMutation.Template

/-- Why a template cannot be filled in. -/
inductive Fault where
  /-- A closing brace stands alone. -/
  | loneClosing
  /-- An opening brace stands alone at the end. -/
  | loneOpening
  /-- The name of a field does not end. -/
  | endless
  /-- There is a brace in the name of a field. -/
  | braceInName
  /-- The conversion of a field does not start. -/
  | noConversion
  /-- The conversion of a field has several characters. -/
  | longConversion
  /-- The layout of a field does not end. -/
  | endlessLayout
  /-- The position of a field is too large. -/
  | largePosition
  /-- A field has a position. -/
  | positional
  /-- No field has this name. -/
  | unknown (name : String)
  deriving DecidableEq, Repr

/-- A fault in words. -/
def Fault.message : Fault → String
  | .loneClosing => "Single '\x7d' encountered in format string"
  | .loneOpening => "Single '\x7b' encountered in format string"
  | .endless => "expected '\x7d' before end of string"
  | .braceInName => "unexpected '\x7b' in field name"
  | .noConversion => "end of string while looking for conversion specifier"
  | .longConversion => "expected ':' after conversion specifier"
  | .endlessLayout => "unmatched '\x7b' in format spec"
  | .largePosition => "Too many decimal digits in format string"
  | .positional => "Format string contains positional fields"
  | .unknown name => name

/-! ## Reading -/

/-- What follows a layout, in which `depth` further braces are open. -/
def afterLayout : (depth : Nat) → List Char → Except Fault (List Char)
  | _, [] => .error .endlessLayout
  | 0, '}' :: rest => .ok rest
  | depth + 1, '}' :: rest => afterLayout depth rest
  | depth, '{' :: rest => afterLayout (depth + 1) rest
  | depth, _ :: rest => afterLayout depth rest

/-- What follows a conversion and a layout. -/
def afterConversion : List Char → Except Fault (List Char)
  | [] => .error .noConversion
  | [_] => .error .endlessLayout
  | _ :: '}' :: rest => .ok rest
  | _ :: ':' :: rest => afterLayout 0 rest
  | _ => .error .longConversion

/-- The name of a field, and what follows the field.  Between square brackets `inIndex` holds, and
braces and signs are part of the name. -/
def readField : (inIndex : Bool) → List Char → Except Fault (List Char × List Char)
  | _, [] => .error .endless
  | true, c :: rest =>
    (fun (name, after) => (c :: name, after)) <$> readField (c != ']') rest
  | false, '{' :: _ => .error .braceInName
  | false, '}' :: rest => .ok ([], rest)
  | false, ':' :: rest => (([], ·)) <$> afterLayout 0 rest
  | false, '!' :: rest => (([], ·)) <$> afterConversion rest
  | false, c :: rest =>
    (fun (name, after) => (c :: name, after)) <$> readField (c == '[') rest

/-! ## Filling in -/

/-- The largest position that can be written. -/
def maxPosition : Nat := 9223372036854775807

/-- The value of a field, from the values of all fields by name. -/
def valueOf (values : List (String × String)) (name : List Char) : Except Fault String :=
  let first := name.takeWhile fun c => c != '.' && c != '['
  if first.all fun c => (Numeral.digit? c).isSome then
    if maxPosition < Numeral.value (first.filterMap Numeral.digit?) then .error .largePosition
    else .error .positional
  else
    match List.lookup (String.ofList first) values with
    | some value => .ok value
    | none => .error (.unknown (String.ofList first))

/-- Characters of a template with their fields filled in.  Each step reads at least one of the
`fuel` characters, and a field is filled in before what follows it is read. -/
def fillFrom (values : List (String × String)) : (fuel : Nat) → List Char → Except Fault String
  | 0, _ => .ok ""
  | _, [] => .ok ""
  | fuel + 1, '{' :: '{' :: rest => ("\x7b" ++ ·) <$> fillFrom values fuel rest
  | fuel + 1, '}' :: '}' :: rest => ("\x7d" ++ ·) <$> fillFrom values fuel rest
  | _, ['{'] => .error .loneOpening
  | _, '}' :: _ => .error .loneClosing
  | fuel + 1, '{' :: rest => do
    let (name, after) ← readField false rest
    let value ← valueOf values name
    return value ++ (← fillFrom values fuel after)
  | fuel + 1, c :: rest => (String.singleton c ++ ·) <$> fillFrom values fuel rest

/-- A template with its fields filled in. -/
def fill (values : List (String × String)) (template : String) : Except Fault String :=
  fillFrom values template.toList.length template.toList

end SourceMutation.Template
