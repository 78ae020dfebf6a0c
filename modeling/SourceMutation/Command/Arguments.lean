/-!
# Arguments of a command

Options and operands.  An option has long names, which start with two dashes, and short names,
which are a dash and one character.  Its value follows it as the next argument; after a long name
it may also stand behind an equals sign, after a short one directly behind it.  Several short
options without values can share one dash.

Two dashes alone end the options.  A lone dash is an operand.
-/

namespace SourceMutation

/-- Why arguments are refused. -/
inductive UsageFault where
  | unknownOption (name : String)
  | valueMissing (name : String)
  | valueUnexpected (name : String)
  | missing (what : String)
  | unexpected (operand : String)
  | unknownCommand (name : String)
  | notInteger (given : String)
  | noSuchPath (given : String)
  | wrongKind (given : String)
  deriving DecidableEq, Repr

/-- A usage fault in words. -/
def UsageFault.message : UsageFault → String
  | .unknownOption name => s!"No such option: {name}"
  | .valueMissing name => s!"Option '{name}' requires an argument."
  | .valueUnexpected name => s!"Option '{name}' does not take a value."
  | .missing what => s!"Missing {what}."
  | .unexpected operand => s!"Got unexpected extra argument ({operand})"
  | .unknownCommand name => s!"No such command '{name}'."
  | .notInteger given => s!"'{given}' is not a valid integer."
  | .noSuchPath given => s!"Path '{given}' does not exist."
  | .wrongKind given => s!"Path '{given}' is of the wrong kind."

/-- An option that a command knows. -/
structure OptionRule (κ : Type) where
  /-- What the option stands for. -/
  key : κ
  /-- The names by which it is given, dashes included. -/
  names : List String
  /-- Whether a value belongs to it. -/
  takesValue : Bool

/-- Arguments taken apart: options with their values, in order, and operands. -/
structure Arguments (κ : Type) where
  options : List (κ × String)
  operands : List String

namespace Arguments

variable {κ : Type}

/-! ## Reading -/

/-- What an argument with options in it holds: whole options, and one that still needs its
value. -/
abbrev Reading (κ : Type) := List (κ × String) × Option (κ × String)

/-- The rule of a name. -/
def ruleOf (rules : List (OptionRule κ)) (name : String) : Option (OptionRule κ) :=
  rules.find? fun rule => rule.names.contains name

/-- Reads short options that share a dash. -/
def readShort (rules : List (OptionRule κ)) : List Char → Except UsageFault (Reading κ)
  | [] => .ok ([], none)
  | c :: rest =>
    let name := String.ofList ['-', c]
    match ruleOf rules name with
    | none => .error (.unknownOption name)
    | some rule =>
      if rule.takesValue then
        if rest.isEmpty then .ok ([], some (rule.key, name))
        else .ok ([(rule.key, String.ofList rest)], none)
      else do
        let (options, pending) ← readShort rules rest
        return ((rule.key, "") :: options, pending)

/-- Reads a long option. -/
def readLong (rules : List (OptionRule κ)) (name : String) (value : Option String) :
    Except UsageFault (Reading κ) :=
  match ruleOf rules name with
  | none => .error (.unknownOption name)
  | some rule =>
    match value with
    | none =>
      if rule.takesValue then .ok ([], some (rule.key, name)) else .ok ([(rule.key, "")], none)
    | some value =>
      if rule.takesValue then .ok ([(rule.key, value)], none)
      else .error (.valueUnexpected name)

/-- Characters before the first equals sign, and those after it if there is one. -/
def atEquals (cs : List Char) : String × Option String :=
  let name := cs.takeWhile (· != '=')
  match cs.dropWhile (· != '=') with
  | [] => (String.ofList name, none)
  | _ :: value => (String.ofList name, some (String.ofList value))

/-- Reads an argument with options in it; `none` for an operand. -/
def readOption? (rules : List (OptionRule κ)) (argument : String) :
    Option (Except UsageFault (Reading κ)) :=
  match argument.toList with
  | '-' :: '-' :: rest =>
    let (name, value) := atEquals ('-' :: '-' :: rest)
    some (readLong rules name value)
  | '-' :: c :: rest => some (readShort rules (c :: rest))
  | _ => none

/--
Takes arguments apart.  Operands may stand among options if `mixed`; otherwise the first operand
ends the options.
-/
def read (rules : List (OptionRule κ)) (mixed : Bool) :
    List String → Except UsageFault (Arguments κ)
  | [] => .ok ⟨[], []⟩
  | argument :: rest =>
    if argument = "--" then .ok ⟨[], rest⟩
    else
      match readOption? rules argument with
      | none =>
        if mixed then
          (fun (later : Arguments κ) => { later with operands := argument :: later.operands })
            <$> read rules mixed rest
        else .ok ⟨[], argument :: rest⟩
      | some (.error fault) => .error fault
      | some (.ok (options, none)) =>
        (fun (later : Arguments κ) => { later with options := options ++ later.options })
          <$> read rules mixed rest
      | some (.ok (options, some (key, name))) =>
        match rest with
        | [] => .error (.valueMissing name)
        | value :: rest =>
          (fun (later : Arguments κ) =>
            { later with options := options ++ (key, value) :: later.options })
            <$> read rules mixed rest

/-! ## Looking up -/

variable [DecidableEq κ]

/-- All values of an option, in order. -/
def values (arguments : Arguments κ) (key : κ) : List String :=
  arguments.options.filterMap fun option => if option.1 = key then some option.2 else none

/-- The value of an option; the last one counts. -/
def value? (arguments : Arguments κ) (key : κ) : Option String := (arguments.values key).getLast?

/-- Whether an option is given. -/
def has (arguments : Arguments κ) (key : κ) : Bool := (arguments.value? key).isSome

end Arguments

end SourceMutation
