import ArtifactAtlas.OrderedMap
import ArtifactAtlas.Text.Split

/-!
# Command line arguments

Arguments are options, with or without a value, and operands.  An option is named
in full after two dashes or by a letter after one; its value follows it, after an
equals sign or as the next argument.  After two dashes alone only operands come.
The first argument that breaks the rules, or asks for help, decides.
-/

namespace ArtifactAtlas.CommandLine

/-- Why there is nothing to run. -/
inductive Halt where
  | refused
  | help
  | version
  deriving DecidableEq, Repr

inductive Arity where
  /-- The option has no value. -/
  | flag
  | once
  /-- The option may be given again, with one more value each time. -/
  | repeated
  deriving DecidableEq, Repr

structure OptionRule where
  name : String
  letter : Option Char := none
  arity : Arity
  /-- Where the value comes from when the option is not given. -/
  environment : Option String := none
  /-- Splits a value into several. -/
  separator : Option Char := none
  accepts : String → Bool := fun _ => true

structure Rules where
  options : List OptionRule
  /-- How many operands there may be, if not any number. -/
  mostOperands : Option Nat
  acceptsOperand : String → Bool

/-- What a command has been given: the values of options by name, and operands. -/
structure Given where
  options : List (String × List String) := []
  operands : List String := []

namespace Given

def values (given : Given) (name : String) : List String :=
  (Entries.lookup name given.options).getD []

/-- The value of an option that has at most one. -/
def value? (given : Given) (name : String) : Option String :=
  (given.values name).head?

def has (given : Given) (name : String) : Bool :=
  (Entries.lookup name given.options).isSome

def addOption (given : Given) (rule : OptionRule) (values : List String) :
    Except Halt Given :=
  if rule.arity ≠ .repeated ∧ given.has rule.name then .error .refused
  else if values.all rule.accepts then
    .ok { given with
      options := Entries.put rule.name (given.values rule.name ++ values) given.options }
  else .error .refused

def addOperand (rules : Rules) (given : Given) (operand : String) : Except Halt Given :=
  if rules.mostOperands.all (given.operands.length < ·) ∧ rules.acceptsOperand operand then
    .ok { given with operands := given.operands ++ [operand] }
  else .error .refused

end Given

def OptionRule.split (rule : OptionRule) (value : String) : List String :=
  match rule.separator with
  | some separator => Text.splitString separator value
  | none => [value]

/-! ## Reading arguments -/

inductive Argument where
  /-- Two dashes alone. -/
  | escape
  | long (name : String) (value : Option String)
  | letters (text : List Char)
  | operand

/-- The text before the first equals sign, and what follows it. -/
def splitValue (text : List Char) : String × Option String :=
  let name := text.takeWhile (· ≠ '=')
  match text.dropWhile (· ≠ '=') with
  | [] => (String.ofList name, none)
  | _ :: value => (String.ofList name, some (String.ofList value))

def Argument.of (text : String) : Argument :=
  match text.toList with
  | ['-', '-'] => .escape
  | '-' :: '-' :: rest =>
      let (name, value) := splitValue rest
      .long name value
  | ['-'] => .operand
  | '-' :: rest => .letters rest
  | _ => .operand

/-- Whether an argument can be the value of the option before it. -/
def isValue (text : String) : Bool :=
  match Argument.of text with
  | .operand => true
  | _ => false

/-- Reads letters after one dash; the last option may still wait for its value. -/
def readLetters (rules : Rules) (given : Given) :
    List Char → Except Halt (Given × Option OptionRule)
  | [] => .ok (given, none)
  | 'h' :: _ => .error .help
  | c :: rest => do
      match rules.options.find? (·.letter = some c) with
      | none => .error .refused
      | some rule =>
          if rule.arity = .flag then readLetters rules (← given.addOption rule []) rest
          else
            match rest with
            | [] => return (given, some rule)
            | '=' :: value =>
                return (← given.addOption rule (rule.split (String.ofList value)), none)
            | value => return (← given.addOption rule (rule.split (String.ofList value)), none)

/-- Reads an option named in full; it may still wait for its value. -/
def readLong (rules : Rules) (given : Given) (name : String) (value : Option String) :
    Except Halt (Given × Option OptionRule) := do
  if name = "help" then throw (if value.isNone then .help else .refused)
  match rules.options.find? (·.name = name), value with
  | none, _ => throw .refused
  | some rule, some value =>
      if rule.arity = .flag then throw .refused
      return (← given.addOption rule (rule.split value), none)
  | some rule, none =>
      if rule.arity = .flag then return (← given.addOption rule [], none)
      return (given, some rule)

/-- Reads arguments, of which the first may be the value that an option waits for. -/
def read (rules : Rules) (given : Given) (waiting : Option OptionRule) :
    List String → Except Halt Given
  | [] => if waiting.isSome then .error .refused else .ok given
  | text :: rest =>
      match waiting with
      | some rule =>
          if isValue text then do
            read rules (← given.addOption rule (rule.split text)) none rest
          else .error .refused
      | none =>
          match Argument.of text with
          | .escape => rest.foldlM (Given.addOperand rules) given
          | .operand => do read rules (← given.addOperand rules text) none rest
          | .letters text => do
              let (given, waiting) ← readLetters rules given text
              read rules given waiting rest
          | .long name value => do
              let (given, waiting) ← readLong rules given name value
              read rules given waiting rest

/-! ## The environment -/

abbrev Environment := List (String × String)

/-- Gives an option that is not given the value of its variable. -/
def fromEnvironment (environment : Environment) (given : Given) (rule : OptionRule) :
    Except Halt Given :=
  match rule.environment.bind fun name => Entries.lookup name environment with
  | some value =>
      if given.has rule.name then .ok given else given.addOption rule (rule.split value)
  | none => .ok given

/-- What a command is given by its arguments and the environment. -/
def Rules.read (rules : Rules) (environment : Environment) (arguments : List String) :
    Except Halt Given := do
  let given ← CommandLine.read rules {} none arguments
  rules.options.foldlM (fromEnvironment environment) given

end ArtifactAtlas.CommandLine
