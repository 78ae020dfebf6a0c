import SourceMutation.Text.Blank
import SourceMutation.Text.LowerCase
import SourceMutation.Text.Numeral

/-!
# Names of styles

How a text looks is named by words: attributes, each perhaps after `not`; a colour; `on` and a
colour for the ground; `link` and an address.  Many names have the same meaning, since attributes
have short names and words may come in any order; `StyleName.normal` picks one of them.
-/

namespace SourceMutation

/-- What a name of a style asks for. -/
structure StyleName where
  /-- Attributes that are set or unset, the latest first. -/
  attributes : List (String × Bool) := []
  /-- The colour of the text. -/
  colour : Option String := none
  /-- The colour of the ground. -/
  ground : Option String := none
  /-- The address that the text leads to. -/
  link : Option String := none

namespace StyleName

/-! ## Attributes -/

/-- The attributes, in the order in which they are named. -/
def attributeNames : List String :=
  ["bold", "dim", "italic", "underline", "blink", "blink2", "reverse", "conceal", "strike",
    "underline2", "frame", "encircle", "overline"]

/-- The short names of attributes. -/
def shortNames : List (String × String) :=
  [("b", "bold"), ("d", "dim"), ("i", "italic"), ("u", "underline"), ("r", "reverse"),
    ("c", "conceal"), ("s", "strike"), ("uu", "underline2"), ("o", "overline")]

/-- The attribute that a word names. -/
def attribute? (word : String) : Option String :=
  if attributeNames.contains word then some word else List.lookup word shortNames

/-! ## Colours -/

/-- The names of colours, without those that differ only in writing `gray` for `grey`. -/
def colourNames : List String := wordsOf
  "black red green yellow blue magenta cyan white bright_black bright_red bright_green
    bright_yellow bright_blue bright_magenta bright_cyan bright_white grey0 navy_blue dark_blue
    blue3 blue1 dark_green deep_sky_blue4 dodger_blue3 dodger_blue2 green4 spring_green4
    turquoise4 deep_sky_blue3 dodger_blue1 green3 spring_green3 dark_cyan light_sea_green
    deep_sky_blue2 deep_sky_blue1 spring_green2 cyan3 dark_turquoise turquoise2 green1
    spring_green1 medium_spring_green cyan2 cyan1 dark_red deep_pink4 purple4 purple3 blue_violet
    orange4 grey37 medium_purple4 slate_blue3 royal_blue1 chartreuse4 dark_sea_green4
    pale_turquoise4 steel_blue steel_blue3 cornflower_blue chartreuse3 cadet_blue sky_blue3
    steel_blue1 pale_green3 sea_green3 aquamarine3 medium_turquoise chartreuse2 sea_green2
    sea_green1 aquamarine1 dark_slate_gray2 dark_magenta dark_violet purple light_pink4 plum4
    medium_purple3 slate_blue1 yellow4 wheat4 grey53 light_slate_grey medium_purple
    light_slate_blue dark_olive_green3 dark_sea_green light_sky_blue3 sky_blue2 dark_sea_green3
    dark_slate_gray3 sky_blue1 chartreuse1 light_green pale_green1 dark_slate_gray1 red3
    medium_violet_red magenta3 dark_orange3 indian_red hot_pink3 medium_orchid3 medium_orchid
    medium_purple2 dark_goldenrod light_salmon3 rosy_brown grey63 medium_purple1 gold3 dark_khaki
    navajo_white3 grey69 light_steel_blue3 light_steel_blue yellow3 dark_sea_green2 light_cyan3
    light_sky_blue1 green_yellow dark_olive_green2 dark_sea_green1 pale_turquoise1 deep_pink3
    magenta2 hot_pink2 orchid medium_orchid1 orange3 light_pink3 pink3 plum3 violet
    light_goldenrod3 tan misty_rose3 thistle3 plum2 khaki3 light_goldenrod2 light_yellow3 grey84
    light_steel_blue1 yellow2 dark_olive_green1 honeydew2 light_cyan1 red1 deep_pink2 deep_pink1
    magenta1 orange_red1 indian_red1 hot_pink dark_orange salmon1 light_coral pale_violet_red1
    orchid2 orchid1 orange1 sandy_brown light_salmon1 light_pink1 pink1 plum1 gold1 navajo_white1
    misty_rose1 thistle1 yellow1 light_goldenrod1 khaki1 wheat1 cornsilk1 grey100 grey3 grey7
    grey11 grey15 grey19 grey23 grey27 grey30 grey35 grey39 grey42 grey46 grey50 grey54 grey58
    grey62 grey66 grey70 grey74 grey78 grey82 grey85 grey89 grey93"

/-- A word that writes `grey` where it wrote `gray`. -/
def withGrey : List Char → List Char
  | 'g' :: 'r' :: 'a' :: 'y' :: rest => 'g' :: 'r' :: 'e' :: 'y' :: withGrey rest
  | c :: rest => c :: withGrey rest
  | [] => []

/-- Whether a word names a colour. -/
def isColourName (word : String) : Bool :=
  word == "default" || colourNames.contains word
    || colourNames.contains (String.ofList (withGrey word.toList))

/-- Whether a character is a hexadecimal digit in lower case. -/
def isHexDigit (c : Char) : Bool := c.isDigit || ('a' ≤ c && c ≤ 'f')

/-- What stands between brackets after a word. -/
def argument? (word : String) (cs : List Char) : Option (List Char) :=
  let lead := word.toList ++ ['(']
  if lead.isPrefixOf cs && cs.getLast? == some ')' then some (cs.drop lead.length).dropLast
  else none

/-- Whether a text is a number of at most 255. -/
def isByte (cs : List Char) : Bool :=
  !cs.isEmpty && cs.all (fun c => (Numeral.digit? c).isSome)
    && Numeral.value (cs.filterMap Numeral.digit?) ≤ 255

/-- Whether characters write a colour by its shares of red, green and blue, or by its number. -/
def isColourCode (cs : List Char) : Bool :=
  match cs with
  | '#' :: digits => digits.length == 6 && digits.all isHexDigit
  | _ =>
    match argument? "color" cs, argument? "rgb" cs with
    | some number, _ => number.length ≤ 3 && number.all Char.isDigit && isByte number
    | _, some shares =>
      let fields := Fields.split ',' shares
      fields.length == 3 && fields.all isByte
    | none, none => false

/-- Whether a word stands for a colour. -/
def isColour (word : String) : Bool := isColourName word || isColourCode word.toList

/-! ## Reading -/

/-- Reads words on top of what words before them asked for. -/
def ofWords (style : StyleName) : List String → Option StyleName
  | [] => some style
  | [word] =>
    let word := LowerCase.ofText word
    match attribute? word with
    | some effect => some { style with attributes := (effect, true) :: style.attributes }
    | none => if isColour word then some { style with colour := some word } else none
  | word :: next :: rest =>
    match LowerCase.ofText word with
    | "on" =>
      let next := LowerCase.ofText next
      if isColour next then ofWords { style with ground := some next } rest else none
    | "not" =>
      match attribute? next with
      | some effect =>
        ofWords { style with attributes := (effect, false) :: style.attributes } rest
      | none => none
    | "link" => ofWords { style with link := some next } rest
    | word =>
      match attribute? word with
      | some effect =>
        ofWords { style with attributes := (effect, true) :: style.attributes } (next :: rest)
      | none =>
        if isColour word then ofWords { style with colour := some word } (next :: rest) else none

/-! ## Writing -/

/-- The words for an attribute, if anything is said about it. -/
def attributeWords (style : StyleName) (effect : String) : List String :=
  match List.lookup effect style.attributes with
  | some true => [effect]
  | some false => ["not", effect]
  | none => []

/-- The words for what a name asks for. -/
def words (style : StyleName) : List String :=
  attributeNames.flatMap style.attributeWords
    ++ style.colour.toList
    ++ (style.ground.map fun ground => ["on", ground]).getD []
    ++ (style.link.map fun link => ["link", link]).getD []

/-- The name picked among those with the meaning of a text; a text that names no style stands for
itself. -/
def normal (text : String) : String :=
  let trimmed := String.ofList (trimBlanks text.toList)
  if trimmed == "none" then "none"
  else
    match ofWords {} (wordsOf text) with
    | some style => " ".intercalate style.words
    | none => LowerCase.ofText trimmed

end StyleName

end SourceMutation
