/-!
# Globs

What one part of an ignore pattern is made of, and what it matches.

A pattern is a list of pieces, and matches a path from its start; what follows the match does not
matter.  Most pieces match single characters.  A few stand for whole runs of directories, which a
single piece has to cover so that nothing is split in the middle of a name.
-/

namespace SourceMutation

/-- A member of a bracket class. -/
inductive ClassItem where
  /-- One character. -/
  | single (c : Char)
  /-- All characters from one to another; none if they run backwards. -/
  | range (first last : Char)
  deriving DecidableEq, Repr

namespace ClassItem

/-- Whether a member covers a character. -/
def has (item : ClassItem) (c : Char) : Bool :=
  match item with
  | .single d => c == d
  | .range first last => first ≤ c && c ≤ last

/-- Whether a member is a range whose end comes before its start. -/
def isBackward : ClassItem → Bool
  | .single _ => false
  | .range first last => last < first

end ClassItem

/-- A bracket class: the characters of its members, or all others. -/
structure CharClass where
  negated : Bool
  items : List ClassItem
  deriving DecidableEq, Repr

/-- Whether a class has a character. -/
def CharClass.has (cls : CharClass) (c : Char) : Bool :=
  (cls.items.any fun item => item.has c) != cls.negated

/-- A piece of a pattern. -/
inductive Piece where
  /-- One character. -/
  | char (c : Char)
  /-- Any character but a slash. -/
  | any
  /-- Any number of characters that are no slash. -/
  | anyRun
  /-- At least one character that is no slash. -/
  | wholeName
  /-- A character of a class. -/
  | oneOf (cls : CharClass)
  /-- Nothing, or directories up to a slash. -/
  | leadingDirectories
  /-- Nothing, or a slash and everything after it. -/
  | innerDirectories
  /-- The end of a name: a slash, or the end of the path. -/
  | nameEnd
  deriving DecidableEq, Repr

namespace Piece

/-! ## Matching runs -/

/-- Whether some way of passing over characters that are no slash satisfies what comes after. -/
def afterNameRun (next : List Char → Bool) : List Char → Bool
  | [] => next []
  | c :: rest => next (c :: rest) || (c != '/' && afterNameRun next rest)

/-- Whether some slash in the rest of the line is followed by what comes after. -/
def afterSomeSlash (next : List Char → Bool) : List Char → Bool
  | [] => false
  | c :: rest => (c == '/' && next rest) || (c != '\n' && afterSomeSlash next rest)

/-- Whether some point in the rest of the line is followed by what comes after. -/
def afterLineRun (next : List Char → Bool) : List Char → Bool
  | [] => next []
  | c :: rest => next (c :: rest) || (c != '\n' && afterLineRun next rest)

/-- Whether at least one character of the line is passed over before what comes after. -/
def afterLineRunOfOne (next : List Char → Bool) : List Char → Bool
  | [] => false
  | c :: rest => c != '\n' && afterLineRun next rest

/-- Whether the path ends here; a newline at its very end does not count. -/
def atEnd : List Char → Bool
  | [] => true
  | ['\n'] => true
  | _ => false

/-- Whether pieces match the start of a list of characters. -/
def matchAll : List Piece → List Char → Bool
  | [], _ => true
  | .char c :: pieces, d :: rest => c == d && matchAll pieces rest
  | .any :: pieces, d :: rest => d != '/' && matchAll pieces rest
  | .oneOf cls :: pieces, d :: rest => cls.has d && matchAll pieces rest
  | .wholeName :: pieces, d :: rest => d != '/' && afterNameRun (matchAll pieces) rest
  | .anyRun :: pieces, cs => afterNameRun (matchAll pieces) cs
  | .leadingDirectories :: pieces, cs =>
    matchAll pieces cs ||
      match cs with
      | [] => false
      | c :: rest => c != '\n' && afterSomeSlash (matchAll pieces) rest
  | .innerDirectories :: pieces, cs =>
    matchAll pieces cs ||
      match cs with
      | '/' :: rest => afterLineRunOfOne (matchAll pieces) rest
      | _ => false
  | .nameEnd :: pieces, cs =>
    (match cs with
      | '/' :: rest => matchAll pieces rest
      | _ => false)
      || (atEnd cs && matchAll pieces cs)
  | _ :: _, [] => false

/-! ## Reading a part of a pattern -/

/-- What reading a part comes to, beside its pieces. -/
inductive PartFault where
  /-- A backslash at the end. -/
  | dangling
  /-- A bracket that is never closed. -/
  | unclosed
  deriving DecidableEq, Repr

/-- The characters of a class up to its closing bracket, and what follows that. -/
def untilBracket : List Char → Option (List Char × List Char)
  | [] => none
  | ']' :: rest => some ([], rest)
  | c :: rest => (untilBracket rest).map fun (inside, after) => (c :: inside, after)

/-- The members that the inside of a class writes; a hyphen at the end stands for itself. -/
def classItems : List Char → List ClassItem
  | [] => []
  | [c, '-'] => [.single c, .single '-']
  | c :: '-' :: d :: rest => .range c d :: classItems rest
  | c :: rest => .single c :: classItems rest

/-- A class, read after its opening bracket, and what follows it. -/
def readClass (cs : List Char) : Except PartFault (CharClass × List Char) :=
  let (negated, cs) :=
    match cs with
    | '!' :: rest => (true, rest)
    | '^' :: rest => (true, rest)
    | _ => (false, cs)
  let inside :=
    match cs with
    | ']' :: rest => (untilBracket rest).map fun (inside, after) => (']' :: inside, after)
    | _ => untilBracket cs
  match inside with
  | none => .error .unclosed
  | some (inside, after) => .ok (⟨negated, classItems inside⟩, after)

/-- The pieces of a part of a pattern.  Each step reads at least one of the `fuel` characters. -/
def readPart : (fuel : Nat) → List Char → Except PartFault (List Piece)
  | _, [] => .ok []
  | 0, _ :: _ => .ok []
  | fuel + 1, '\\' :: rest =>
    match rest with
    | [] => .error .dangling
    | c :: rest => (.char c :: ·) <$> readPart fuel rest
  | fuel + 1, '*' :: rest => (.anyRun :: ·) <$> readPart fuel rest
  | fuel + 1, '?' :: rest => (.any :: ·) <$> readPart fuel rest
  | fuel + 1, '[' :: rest =>
    match readClass rest with
    | .error fault => .error fault
    | .ok (cls, rest) => (.oneOf cls :: ·) <$> readPart fuel rest
  | fuel + 1, c :: rest => (.char c :: ·) <$> readPart fuel rest

end Piece

end SourceMutation
