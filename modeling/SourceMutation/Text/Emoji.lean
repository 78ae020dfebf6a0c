import SourceMutation.Text.Blank
import SourceMutation.Text.EmojiNames
import SourceMutation.Text.LowerCase

/-!
# Pictographs by name

In a text for display, a name between two colons stands for a pictograph.  The name may be in
letters of either case, and may end in a hyphen and `emoji` or `text`, which asks for the coloured
or the plain form.  What is no such name stays as it is.
-/

namespace SourceMutation.Emoji

/-! ## Names -/

/-- Pairs of neighbours. -/
def pairs : List String → List (String × String)
  | first :: second :: rest => (first, second) :: pairs rest
  | _ => []

/-- Pictographs by name. -/
def pictographs : List (String × String) := pairs (wordsOf EmojiNames.pictographs)

/-- Codes of regions by name. -/
def regions : List (String × String) := pairs (wordsOf EmojiNames.regions)

/-- The names of pictographs that come in skin tones. -/
def people : List String := wordsOf EmojiNames.people

/-- A text without what it starts with, if it starts with that. -/
def afterLead? (lead text : String) : Option String :=
  if lead.toList.isPrefixOf text.toList then
    some (String.ofList (text.toList.drop lead.toList.length))
  else none

/-- A text without what it ends with, if it ends with that. -/
def beforeEnd? (ending text : String) : Option String :=
  if ending.toList.isSuffixOf text.toList then
    some (String.ofList (text.toList.take (text.toList.length - ending.toList.length)))
  else none

/-- The flag of a region: its code in the letters that flags are written with. -/
def flagOf (code : String) : String :=
  String.ofList (code.toList.map fun c => Char.ofNat (0x1F1E6 + (c.toNat - 'A'.toNat)))

/-- The flag with a name. -/
def flag? (name : String) : Option String :=
  (List.lookup ((afterLead? EmojiNames.flagLead name).getD name) regions).map flagOf

/-- A pictograph in a skin tone.  The tone stands behind the first character, in the place of the
mark that asks for the coloured form if there is one. -/
def toned (tone : Nat) (pictograph : String) : String :=
  match pictograph.toList with
  | first :: '\ufe0f' :: rest => String.ofList (first :: Char.ofNat tone :: rest)
  | first :: rest => String.ofList (first :: Char.ofNat tone :: rest)
  | [] => ""

/-- The pictograph in a skin tone with a name. -/
def toned? (name : String) : Option String :=
  EmojiNames.tones.findSome? fun (ending, tone) =>
    match beforeEnd? ending name with
    | some person =>
      if people.contains person then (List.lookup person pictographs).map (toned tone) else none
    | none => none

/-- The pictograph with a name. -/
def find? (name : String) : Option String :=
  ((List.lookup name pictographs).or (flag? name)).or (toned? name)

/-! ## Codes -/

/-- The name in a code, and the mark for the form that the code asks for. -/
def nameAndMark (code : String) : String × String :=
  match beforeEnd? "-emoji" code with
  | some name => (name, "\ufe0f")
  | none =>
    match beforeEnd? "-text" code with
    | some name => (name, "\ufe0e")
    | none => (code, "")

/-- What a code between colons is shown as. -/
def shown (code : String) : String :=
  let (name, mark) := nameAndMark code
  match find? (LowerCase.ofText name) with
  | some pictograph => pictograph ++ mark
  | none => ":" ++ code ++ ":"

/--
Characters with the codes among them replaced.  `held` is what stands behind a colon that may
start a code, last character first.
-/
def replaceAfter : (held : Option (List Char)) → List Char → List Char
  | none, [] => []
  | some held, [] => ':' :: held.reverse
  | none, c :: rest => if c = ':' then replaceAfter (some []) rest else c :: replaceAfter none rest
  | some held, c :: rest =>
    if c = ':' then (shown (String.ofList held.reverse)).toList ++ replaceAfter none rest
    else if isBlank c then ':' :: held.reverse ++ c :: replaceAfter none rest
    else replaceAfter (some (c :: held)) rest

/-- Characters with the codes among them replaced. -/
def replace (cs : List Char) : List Char := replaceAfter none cs

end SourceMutation.Emoji
