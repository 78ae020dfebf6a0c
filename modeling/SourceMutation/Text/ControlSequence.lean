/-!
# Control sequences

What a terminal takes for an order instead of a text: an escape character, an opening bracket,
numbers with separators, and a letter that says what to do.  Plain lines are shown without them.
-/

namespace SourceMutation.ControlSequence

/-- The character that control sequences start with. -/
def escape : Char := '\x1b'

/-- Whether a character may stand between the bracket and the letter. -/
def isParameter (c : Char) : Bool := c.isDigit || c == ';' || c == '?'

/-- What a character is to the control sequence before it. -/
inductive Role where
  /-- The sequence goes on with it. -/
  | continues
  /-- The sequence ends with it. -/
  | ends
  /-- It has no place in the sequence. -/
  | foreign
  deriving DecidableEq, Repr

/-- The role of a character after the start of a sequence, which is held last character first. -/
def role (held : List Char) (c : Char) : Role :=
  match held with
  | [] => .foreign
  | [_] => if c = '[' then .continues else .foreign
  | _ => if isParameter c then .continues else if c.isAlpha then .ends else .foreign

/-- Characters without control sequences, after the start of a sequence that is held. -/
def stripAfter : (held : List Char) → List Char → List Char
  | held, [] => held.reverse
  | held, c :: rest =>
    match role held c with
    | .continues => stripAfter (c :: held) rest
    | .ends => stripAfter [] rest
    | .foreign =>
      held.reverse ++ (if c = escape then stripAfter [c] rest else c :: stripAfter [] rest)

/-- A text without control sequences. -/
def strip (text : String) : String := String.ofList (stripAfter [] text.toList)

end SourceMutation.ControlSequence
