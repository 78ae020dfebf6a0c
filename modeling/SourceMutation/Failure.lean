import SourceMutation.Files.Fault
import SourceMutation.Language
import SourceMutation.Mode
import SourceMutation.Text.Markup
import SourceMutation.Text.Numeral
import SourceMutation.Text.Template
import SourceMutation.Text.Utf8
import SourceMutation.Value

/-!
# Failures

Everything that can go wrong, by cause.  A failure belongs to a class, and classes form a tree:
the program's own classes all descend from one, those about configuration from one below it.
Other classes are those of the values and files that the program works on.

`Failure.message` holds all wording.
-/

namespace SourceMutation

/-! ## Classes -/

/-- The class of a failure. -/
inductive FailureClass where
  | application
  | configuration
  | invalidMode
  | mutationCount
  | unsupportedLanguage
  | grammarNotFound
  | parser
  | sourceRead
  | outputWrite
  | spanOwnership
  | ignorePattern
  | expression
  | markup
  | decoding
  | value
  | type
  | key
  | overflow
  | index
  | file (cause : FileCause)
  /-- A class that only whoever raises it knows, by its name. -/
  | foreign (name : String)
  deriving DecidableEq, Repr

namespace FailureClass

/-- The name under which a class is reported. -/
def name : FailureClass → String
  | .application => "SpanmutError"
  | .configuration => "ConfigError"
  | .invalidMode => "InvalidModeError"
  | .mutationCount => "MutationCountError"
  | .unsupportedLanguage => "UnsupportedLanguageError"
  | .grammarNotFound => "GrammarNotFoundError"
  | .parser => "ParserError"
  | .sourceRead => "SourceReadError"
  | .outputWrite => "OutputWriteError"
  | .spanOwnership => "SpanOwnershipError"
  | .ignorePattern => "GitIgnorePatternError"
  | .expression => "error"
  | .markup => "MarkupError"
  | .decoding => "UnicodeDecodeError"
  | .value => "ValueError"
  | .type => "TypeError"
  | .key => "KeyError"
  | .overflow => "OverflowError"
  | .index => "IndexError"
  | .file .notFound => "FileNotFoundError"
  | .file .exists => "FileExistsError"
  | .file .notDirectory => "NotADirectoryError"
  | .file .isDirectory => "IsADirectoryError"
  | .file _ => "OSError"
  | .foreign name => name

/-- The classes of the program's own failures, and of those that values raise. -/
def named : List FailureClass :=
  [.application, .configuration, .invalidMode, .mutationCount, .unsupportedLanguage,
    .grammarNotFound, .parser, .sourceRead, .outputWrite, .spanOwnership, .ignorePattern, .decoding,
    .value, .type, .key, .overflow, .index]

/-- The class with a given name. -/
def ofName (text : String) : FailureClass :=
  (named.find? fun c => c.name == text).getD (.foreign text)

/-- A class and those above it, up to the program's own root class; other classes stand alone. -/
def lineage : FailureClass → List FailureClass
  | .application => [.application]
  | .configuration => [.configuration, .application]
  | .invalidMode => [.invalidMode, .configuration, .application]
  | .mutationCount => [.mutationCount, .configuration, .application]
  | .unsupportedLanguage => [.unsupportedLanguage, .configuration, .application]
  | .grammarNotFound => [.grammarNotFound, .application]
  | .parser => [.parser, .application]
  | .sourceRead => [.sourceRead, .application]
  | .outputWrite => [.outputWrite, .application]
  | .spanOwnership => [.spanOwnership, .application]
  | c => [c]

/-- Whether a class is the program's own. -/
def isApplication (c : FailureClass) : Bool := c.lineage.contains .application

/-- Whether a class is about configuration. -/
def isConfiguration (c : FailureClass) : Bool := c.lineage.contains .configuration

/-- The facts that a failure of a class carries beside its text. -/
def factNames : FailureClass → List String
  | .invalidMode => ["mode"]
  | .mutationCount => ["count"]
  | .grammarNotFound => ["language", "install_command"]
  | .parser | .sourceRead | .outputWrite => ["file_path", "message"]
  | _ => []

/-- The parts that a failure of a class is made from, if they have names. -/
def partNames : FailureClass → List String
  | .mutationCount => ["count", "message"]
  | c => c.factNames

end FailureClass

/-! ## Causes -/

/-- What is wrong with a mutation count. -/
inductive CountFault where
  | notInteger
  | negative
  | zeroInMode (mode : Mode)
  | zeroInSplice
  deriving DecidableEq, Repr

/-- What is wrong with a list of ignore patterns. -/
inductive PatternFault where
  | notList
  | notText (given : String)
  | blank
  deriving DecidableEq, Repr

/-- What is wrong with a list of file suffixes. -/
inductive SuffixFault where
  | missing
  | notText (given : String)
  | noDot (given : String)
  | tooShort (given : String)
  deriving DecidableEq, Repr

/-- What is wrong with a number of lines. -/
inductive LineLimitFault where
  | notInteger (sort : String)
  | notPositive (given : Int)
  deriving DecidableEq, Repr

/-- A failure, by cause. -/
inductive Failure where
  /-- A failure of a class, in words of whoever raised it. -/
  | stated (category : FailureClass) (text : String)
  /-- Some of the parts that a failure of a class is made from are not given. -/
  | partsMissing (category : FailureClass) (names : List String)
  /-- More parts are given than a failure of a class is made from. -/
  | partsLeft (category : FailureClass) (given : Nat)
  | invalidMode (given : Value)
  | mutationCount (given : Value) (fault : CountFault)
  | unsupportedLanguage (given : String)
  | unsupportedSuffix (given : String)
  | ignorePatterns (fault : PatternFault)
  | suffixes (fault : SuffixFault)
  | lineLimit (fault : LineLimitFault)
  | stallLimit (given : Value)
  | inputDirectory (path : String)
  | grammarNotFound (language command : String)
  | parser (path message : String)
  | sourceRead (path message : String)
  | outputWrite (path message : String)
  | spanOwnership (kind : String) (start stop : Int) (source : String) (size : Nat)
  | ignorePattern (pattern : String)
  /-- A range of characters runs backwards: its text, where it stands in the expression of its
  pattern, and there the line and column if the expression has several lines. -/
  | backwardRange (range : String) (position : Nat) (place : Option (Nat × Nat))
  | markup (fault : Markup.Fault)
  | template (fault : Template.Fault)
  | decoding (fault : Utf8.Fault)
  | file (fault : FileFault)
  | notHashable (sort : String)
  | notIterable (sort : String)
  | notComparable (sort : String)
  | notNumeric (sort : String)
  | seedSort
  | numeral (given : String) (fault : Numeral.Fault)
  | nanToInteger
  | infinityToInteger
  | mutantIndex (given : Int)
  | corpusMissing (mode : Mode)
  | emptyChoice
  | unknownLevel (name : String)
  | negativeLevel (level : Int)
  | levelSort (sort : String)

namespace Failure

/-- The class of a failure. -/
def category : Failure → FailureClass
  | .stated c _ => c
  | .invalidMode _ => .invalidMode
  | .mutationCount _ _ => .mutationCount
  | .unsupportedLanguage _ | .unsupportedSuffix _ => .unsupportedLanguage
  | .ignorePatterns _ | .suffixes _ | .lineLimit _ | .stallLimit _ | .inputDirectory _ =>
    .configuration
  | .grammarNotFound _ _ => .grammarNotFound
  | .parser _ _ => .parser
  | .sourceRead _ _ => .sourceRead
  | .outputWrite _ _ => .outputWrite
  | .spanOwnership _ _ _ _ _ => .spanOwnership
  | .ignorePattern _ => .ignorePattern
  | .backwardRange _ _ _ => .expression
  | .markup _ => .markup
  | .template (.unknown _) => .key
  | .template _ => .value
  | .decoding _ => .decoding
  | .file fault => if fault.cause = .nullCharacter then .value else .file fault.cause
  | .notHashable _ | .notIterable _ | .notComparable _ | .notNumeric _ | .seedSort | .levelSort _
  | .partsMissing _ _ | .partsLeft _ _ => .type
  | .numeral _ _ | .nanToInteger | .mutantIndex _ | .corpusMissing _ | .unknownLevel _
  | .negativeLevel _ => .value
  | .infinityToInteger => .overflow
  | .emptyChoice => .index

/-- The wording of a bad mutation count. -/
def countMessage (given : Value) : CountFault → String
  | .notInteger => s!"Mutation count must be an integer, got {given.sortName}"
  | .negative => s!"Mutation count must not be negative, got {given.shown}"
  | .zeroInMode mode =>
    s!"Mode {mode.number} ({mode.label}) needs a positive mutation count; "
      ++ "generating every splice could produce too many files."
  | .zeroInSplice =>
    "Stopped because there might be too many mutated files: splice modes need a positive count."

/-- The wording of bad ignore patterns. -/
def patternMessage : PatternFault → String
  | .notList => "Ignore patterns must be a list of strings"
  | .notText given => s!"Invalid ignore pattern: {given} (must be a string)"
  | .blank => "Ignore patterns cannot be empty or whitespace-only"

/-- The wording of bad file suffixes. -/
def suffixMessage : SuffixFault → String
  | .missing => "At least one file extension is required"
  | .notText given => s!"Invalid extension: {given} (must be a string)"
  | .noDot given => s!"Extension '{given}' must start with a dot (e.g., '.rs')"
  | .tooShort given => s!"Extension '{given}' is too short (minimum: 2 characters)"

/-- The wording of a text that is not read as an integer. -/
def numeralMessage (given : String) : Numeral.Fault → String
  | .malformed =>
    "invalid literal for int() with base 10: "
      ++ String.ofList ((Quoted.ofText given).toList.take 200)
  | .tooLong digits =>
    s!"Exceeds the limit ({Numeral.maxDigits} digits) for integer string conversion: "
      ++ s!"value has {digits} digits; use sys.set_int_max_str_digits() to increase the limit"

/-- The wording of a range that runs backwards. -/
def backwardRangeMessage (range : String) (position : Nat) : Option (Nat × Nat) → String
  | none => s!"bad character range {range} at position {position}"
  | some (line, column) =>
    s!"bad character range {range} at position {position} (line {line}, column {column})"

/-- The wording of a template that cannot be filled in. -/
def templateMessage : Template.Fault → String
  | .unknown name => Quoted.ofText name
  | fault => fault.message

/-- Names in quotes, listed in a sentence. -/
def listed (names : List String) : String :=
  match names.map fun name => s!"'{name}'" with
  | [first, second] => s!"{first} and {second}"
  | names => ", ".intercalate names

/-- The wording of parts that are not given. -/
def partsMissingMessage (category : FailureClass) (names : List String) : String :=
  let noun := if names.length = 1 then "argument" else "arguments"
  s!"{category.name}.__init__() missing {names.length} required positional {noun}: {listed names}"

/-- The wording of parts that are left over. -/
def partsLeftMessage (category : FailureClass) (given : Nat) : String :=
  let wanted := category.partNames.length + 1
  s!"{category.name}.__init__() takes {wanted} positional arguments but {given + 1} were given"

/-- A failure in words. -/
def message : Failure → String
  | .stated _ text => text
  | .partsMissing c names => partsMissingMessage c names
  | .partsLeft c given => partsLeftMessage c given
  | .invalidMode given =>
    s!"No such mutation mode: {given.quoted}. "
      ++ "Use 0 (delete-only), 1 (self splice), 2 (cross-file splice) "
      ++ "or 3 (cross-file random-kind splice)."
  | .mutationCount given fault => countMessage given fault
  | .unsupportedLanguage given =>
    s!"Language '{given}' is not supported. Supported languages: {Language.allNames}"
  | .unsupportedSuffix given =>
    s!"File extension '{given}' is not supported. Supported extensions: {Language.allSuffixes}"
  | .ignorePatterns fault => patternMessage fault
  | .suffixes fault => suffixMessage fault
  | .lineLimit (.notInteger sort) => s!"max_lines must be an integer, got {sort}"
  | .lineLimit (.notPositive given) => s!"max_lines must be positive, got {given}"
  | .stallLimit given => s!"stall_limit must be zero or positive, got {given.shown}"
  | .inputDirectory path => s!"Input directory '{path}' does not exist or is not a directory"
  | .grammarNotFound language command =>
    s!"Grammar for '{language}' not found. Install it with: {command}"
  | .parser path message => s!"Failed to parse {path}: {message}"
  | .sourceRead path message => s!"Failed to read {path}: {message}"
  | .outputWrite path message => s!"Failed to write {path}: {message}"
  | .spanOwnership kind start stop source size =>
    s!"Span {kind} [{start}, {stop}) does not fit source {source} ({size} bytes)"
  | .ignorePattern pattern => s!"Invalid git pattern: {Quoted.ofText pattern}"
  | .backwardRange range position place => backwardRangeMessage range position place
  | .markup fault => fault.message
  | .template fault => templateMessage fault
  | .decoding fault => fault.message
  | .file fault => fault.message
  | .notHashable sort => s!"unhashable type: '{sort}'"
  | .notIterable sort => s!"'{sort}' object is not iterable"
  | .notComparable sort => s!"'<' not supported between instances of '{sort}' and 'int'"
  | .notNumeric sort =>
    s!"int() argument must be a string, a bytes-like object or a real number, not '{sort}'"
  | .seedSort =>
    "The only supported seed types are: None,\nint, float, str, bytes, and bytearray."
  | .numeral given fault => numeralMessage given fault
  | .nanToInteger => "cannot convert float NaN to integer"
  | .infinityToInteger => "cannot convert float infinity to integer"
  | .mutantIndex given => s!"Mutant index is 1-based, got {given}"
  | .corpusMissing mode => s!"Mode {mode.number} ({mode.label}) needs a shared corpus"
  | .emptyChoice => "Cannot choose from an empty sequence"
  | .unknownLevel name => s!"Level '{name}' does not exist"
  | .negativeLevel level =>
    s!"Invalid level value, it should be a positive integer, not: {level}"
  | .levelSort sort => s!"Invalid level, it should be an integer or a string, not: '{sort}'"

/-- The failure of a class that is made from values; a class whose parts have names needs one value
for each of them. -/
def ofParts (category : FailureClass) (values : List Value) : Except Failure Failure :=
  match category, values with
  | .invalidMode, [mode] => .ok (.invalidMode mode)
  | .mutationCount, [_, message] => .ok (.stated .mutationCount message.shown)
  | .grammarNotFound, [language, command] => .ok (.grammarNotFound language.shown command.shown)
  | .parser, [path, message] => .ok (.parser path.shown message.shown)
  | .sourceRead, [path, message] => .ok (.sourceRead path.shown message.shown)
  | .outputWrite, [path, message] => .ok (.outputWrite path.shown message.shown)
  | .key, [key] => .ok (.stated .key key.quoted)
  | c, values =>
    let names := c.partNames
    if names.isEmpty then .ok (.stated c (Value.argumentsText values))
    else if values.length < names.length then .error (.partsMissing c (names.drop values.length))
    else .error (.partsLeft c values.length)

/-- The failure that a fault of a file comes to where a refusal has its own failure. -/
def ofFault (refused : String → Failure) (fault : FileFault) : Failure :=
  if fault.cause = .nullCharacter then .file fault else refused fault.message

end Failure

/-! ## Stops -/

/-- Why a computation has no result: it failed, or it was not allowed to go on for long enough. -/
inductive Stop where
  | failed (failure : Failure)
  | unfinished

end SourceMutation
