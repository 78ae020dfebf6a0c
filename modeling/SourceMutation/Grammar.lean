import SourceMutation.Log.Line

/-!
# Loaded grammars

Grammars are loaded when they are first asked for and kept from then on, and so are the parsers
made of them.  Each object that is made gets a number of its own, by which it can be told whether
two answers are the same object.

A request can be for any value.  The two kinds of request look at it in different orders:

* a request for a grammar checks that the value names a language, and then looks among what is kept;
* a request for a parser looks under the value itself first (`Grammars.askParser`), and only comes
  to a check when nothing is kept there and the parser has to be made of its grammar.

Since nothing is kept but under the name of a language, the second order comes to the same as the
first one (`Grammars.askParser_eq`).
-/

namespace SourceMutation

/-- A number that tells loaded objects apart. -/
abbrev Handle := Nat

/-- The grammars and parsers that are kept, in the order in which they were first asked for. -/
structure Grammars where
  /-- The kept grammars. -/
  grammars : List (Language × Handle)
  /-- The kept parsers. -/
  parsers : List (Language × Handle)
  /-- How many objects have been made. -/
  made : Nat
  deriving DecidableEq, Repr, Inhabited

namespace Grammars

/-- Nothing kept yet. -/
def empty : Grammars := ⟨[], [], 0⟩

/-! ## Checks of given values -/

/-- A text that is looked up; lists and dictionaries cannot be. -/
def lookedUp (given : Value) : Except Failure String :=
  match given with
  | .text s => .ok s
  | v => if v.canBeKey then .ok v.shown else .error (.notHashable v.sortName)

/-- The language that a value names. -/
def checkLanguage (given : Value) : Except Failure Language := do
  let shown ← lookedUp given
  match given with
  | .text name =>
    match Language.ofName? name with
    | some language => return language
    | none => throw (.unsupportedLanguage name)
  | _ => throw (.unsupportedLanguage shown)

/-- The language whose files have a given suffix. -/
def checkSuffix (given : Value) : Except Failure Language := do
  let shown ← lookedUp given
  match given with
  | .text suffix =>
    match Language.ofSuffix? suffix with
    | some language => return language
    | none => throw (.unsupportedSuffix suffix)
  | _ => throw (.unsupportedSuffix shown)

/-! ## Loading -/

/-- What a request for a grammar or a parser comes to, with the lines it logs. -/
structure Loaded where
  /-- The object, or why there is none. -/
  answer : Except Failure Handle
  /-- What is kept now. -/
  kept : Grammars
  /-- What is logged. -/
  log : List LogLine

/-- The grammar of a language.  `installed` says which grammars can be loaded now. -/
def grammar (installed : Language → Bool) (language : Language) (kept : Grammars) : Loaded :=
  match List.lookup language kept.grammars with
  | some handle => ⟨.ok handle, kept, []⟩
  | none =>
    if installed language then
      ⟨.ok kept.made,
        { kept with
          grammars := kept.grammars ++ [(language, kept.made)]
          made := kept.made + 1 },
        [.debug s!"Successfully loaded language '{language.name}'"]⟩
    else
      ⟨.error (.grammarNotFound language.name language.installCommand), kept,
        [.error (s!"Grammar module '{language.grammarModule}' is not installed. "
          ++ s!"Error: No module named '{language.grammarModule}'")]⟩

/-- Makes the parser of a language, of its grammar. -/
def makeParser (installed : Language → Bool) (language : Language) (kept : Grammars) : Loaded :=
  let loaded := grammar installed language kept
  match loaded.answer with
  | .error failure => ⟨.error failure, loaded.kept, loaded.log⟩
  | .ok _ =>
    let kept := loaded.kept
    ⟨.ok kept.made,
      { kept with
        parsers := kept.parsers ++ [(language, kept.made)]
        made := kept.made + 1 },
      loaded.log⟩

/-- The parser of a language. -/
def parser (installed : Language → Bool) (language : Language) (kept : Grammars) : Loaded :=
  match List.lookup language kept.parsers with
  | some handle => ⟨.ok handle, kept, []⟩
  | none => makeParser installed language kept

/-- A request for a given language. -/
def ofValue (request : Language → Grammars → Loaded) (given : Value) (kept : Grammars) : Loaded :=
  match checkLanguage given with
  | .error failure => ⟨.error failure, kept, []⟩
  | .ok language => request language kept

/-! ## Asking for a parser -/

/-- The parser that is kept under a name, which need not be the name of a language. -/
def parserNamed? (kept : Grammars) (name : String) : Option Handle :=
  List.lookup name (kept.parsers.map fun entry => (entry.1.name, entry.2))

/-- The parser that is kept under a value.  None is kept but under texts. -/
def parserUnder? (kept : Grammars) : Value → Option Handle
  | .text name => kept.parserNamed? name
  | _ => none

/-- A request for the parser of a given language: what is kept is looked up before the language is
checked. -/
def askParser (installed : Language → Bool) (given : Value) (kept : Grammars) : Loaded :=
  match lookedUp given with
  | .error failure => ⟨.error failure, kept, []⟩
  | .ok _ =>
    match kept.parserUnder? given with
    | some handle => ⟨.ok handle, kept, []⟩
    | none => ofValue (makeParser installed) given kept

theorem checkLanguage_text (name : String) :
    checkLanguage (.text name)
      = match Language.ofName? name with
        | some language => .ok language
        | none => .error (.unsupportedLanguage name) := rfl

theorem checkLanguage_name (language : Language) :
    checkLanguage (.text language.name) = .ok language := by
  rw [checkLanguage_text, Language.ofName?_name]

/-- Looking under the name of a language is looking under the language. -/
theorem lookup_name {name : String} {language : Language}
    (hname : Language.ofName? name = some language) (entries : List (Language × Handle)) :
    List.lookup name (entries.map fun entry => (entry.1.name, entry.2))
      = List.lookup language entries := by
  induction entries with
  | nil => rfl
  | cons entry rest ih =>
    have hkey : (name == entry.1.name) = (language == entry.1) := by
      rw [Bool.eq_iff_iff, beq_iff_eq, beq_iff_eq]
      constructor
      · rintro rfl
        rw [Language.ofName?_name] at hname
        exact (Option.some.inj hname).symm
      · rintro rfl
        exact (Language.name_of_ofName? hname).symm
    rw [List.map_cons, List.lookup_cons, List.lookup_cons, hkey, ih]

/-- Nothing is kept under a name that no language has. -/
theorem lookup_unregistered {name : String} (hname : Language.ofName? name = none)
    (entries : List (Language × Handle)) :
    List.lookup name (entries.map fun entry => (entry.1.name, entry.2)) = none := by
  induction entries with
  | nil => rfl
  | cons entry rest ih =>
    have hne : name ≠ entry.1.name := by
      rintro rfl
      rw [Language.ofName?_name] at hname
      cases hname
    rw [List.map_cons, List.lookup_cons, beq_false_of_ne hne]
    exact ih

/-- It makes no difference whether a language is checked before its parser is looked up. -/
theorem askParser_eq (installed : Language → Bool) (given : Value) (kept : Grammars) :
    askParser installed given kept = ofValue (parser installed) given kept := by
  cases given with
  | text name =>
    unfold askParser ofValue parserUnder? parserNamed?
    rw [checkLanguage_text, lookedUp]
    dsimp only
    cases hname : Language.ofName? name with
    | none => rw [lookup_unregistered hname]
    | some language =>
      rw [lookup_name hname]
      dsimp only
      rw [parser]
  | none | bool | int | real | list | dict =>
    -- A value that is no text is refused, and nothing is kept under it.
    unfold askParser ofValue checkLanguage
    split
    case h_1 failure hlooked =>
      rw [hlooked]
      rfl
    case h_2 shown hlooked =>
      rw [hlooked]
      rfl

end Grammars

end SourceMutation
