/-!
# Languages

The languages whose sources can be mutated, the suffixes of their files, and the grammar package
that each one needs.
-/

namespace SourceMutation

/-- A language with a grammar. -/
inductive Language where
  | rust
  | python
  | javascript
  | typescript
  | go
  deriving DecidableEq, Repr, Inhabited

namespace Language

/-- All languages, in the order in which messages list them. -/
def all : List Language := [.rust, .python, .javascript, .typescript, .go]

/-- The name by which a language is asked for. -/
def name : Language → String
  | .rust => "rust"
  | .python => "python"
  | .javascript => "javascript"
  | .typescript => "typescript"
  | .go => "go"

/-- The suffix of a language's files. -/
def suffix : Language → String
  | .rust => ".rs"
  | .python => ".py"
  | .javascript => ".js"
  | .typescript => ".ts"
  | .go => ".go"

/-- The package that holds a language's grammar. -/
def package (language : Language) : String := "tree-sitter-" ++ language.name

/-- The module that a language's grammar is loaded from. -/
def grammarModule (language : Language) : String := "tree_sitter_" ++ language.name

/-- The command that installs a language's grammar. -/
def installCommand (language : Language) : String := "pip install " ++ language.package

/-- The language with a given name. -/
def ofName? (text : String) : Option Language := all.find? fun language => language.name == text

/-- The language whose files have a given suffix. -/
def ofSuffix? (text : String) : Option Language := all.find? fun language => language.suffix == text

/-- The suffixes of a language's files. -/
def suffixes (language : Language) : List String := [language.suffix]

/-- The names of all languages, as messages list them. -/
def allNames : String := ", ".intercalate (all.map name)

/-- The suffixes of all languages, as messages list them. -/
def allSuffixes : String := ", ".intercalate (all.map suffix)

theorem ofName?_name (language : Language) : ofName? language.name = some language := by
  cases language <;> decide

theorem name_of_ofName? {name : String} {language : Language}
    (h : ofName? name = some language) : language.name = name := by
  unfold ofName? at h
  simpa using List.find?_some h

end Language

end SourceMutation
