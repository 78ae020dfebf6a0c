import SourceMutation.Scan.Ignore

/-!
# Scan rules

Which files a scan is after: those with one of some suffixes that no ignore pattern excludes.
What a caller gives is checked here, in order, before anything is looked at.
-/

namespace SourceMutation

/-- What a scan is after. -/
structure ScanRules where
  /-- The suffixes of the files. -/
  suffixes : List String
  /-- What is passed over. -/
  ignore : List IgnorePattern
  deriving Repr

namespace ScanRules

/-! ## Checks of given values -/

/-- The texts of given ignore patterns: none of them may be blank. -/
def checkPatternItems : List Value → Except Failure (List String)
  | [] => .ok []
  | .text pattern :: rest =>
    if isBlankText pattern then .error (.ignorePatterns .blank)
    else (pattern :: ·) <$> checkPatternItems rest
  | v :: _ => .error (.ignorePatterns (.notText v.shown))

/-- The texts of given ignore patterns. -/
def checkPatterns : Value → Except Failure (List String)
  | .list items => checkPatternItems items
  | _ => .error (.ignorePatterns .notList)

/-- The texts of given suffixes: each starts with a point and goes on after it. -/
def checkSuffixItems : List Value → Except Failure (List String)
  | [] => .ok []
  | .text suffix :: rest =>
    match suffix.toList with
    | '.' :: _ :: _ => (suffix :: ·) <$> checkSuffixItems rest
    | ['.'] => .error (.suffixes (.tooShort suffix))
    | _ => .error (.suffixes (.noDot suffix))
  | v :: _ => .error (.suffixes (.notText v.shown))

/-- The items of a given value. -/
def itemsOf (given : Value) : Except Failure (List Value) :=
  match given.items? with
  | some items => .ok items
  | none => .error (.notIterable given.sortName)

/-- The texts of given suffixes, of which there must be one at least. -/
def checkSuffixes (given : Value) : Except Failure (List String) :=
  if given.isSet then itemsOf given >>= checkSuffixItems else .error (.suffixes .missing)

/-! ## Rules -/

/-- The rules of given suffixes and ignore patterns; patterns that say nothing are none. -/
def ofValues (suffixes patterns : Value) : Except Failure ScanRules := do
  let items ← itemsOf suffixes
  let suffixes ← checkSuffixes (.list items)
  if patterns.isSet then
    return ⟨suffixes, ← IgnorePattern.ofTexts (← checkPatterns patterns)⟩
  else return ⟨suffixes, []⟩

/-- The rules of suffixes and ignore patterns that are texts. -/
def ofTexts (suffixes patterns : List String) : Except Failure ScanRules :=
  ofValues (.list (suffixes.map .text)) (.list (patterns.map .text))

end ScanRules

end SourceMutation
