/-!
Reading the arguments of a command: switches, options with values, and operands.

An option has a long name, and some have a letter. A value follows its option as the next argument,
after an equals sign, or right behind the letter. Letters of switches may be run together. After
`--` every argument is an operand. An argument that starts with a hyphen is never the value of the
option before it.
-/

namespace TemplateFill.CommandLine

/-! ### Forms -/

inductive OptionShape where
  | switch
  | value
  | values
deriving DecidableEq

structure OptionForm where
  name : String
  letter? : Option Char
  shape : OptionShape

structure CommandForm where
  options : List OptionForm
  operandLimit : Nat

/-! ### Outcomes -/

inductive Misuse where
  | missingCommand
  | unknownCommand (name : String)
  | unexpected (argument : String)
  | unneededValue (option value : String)
  | missingValue (option : String)
  | repeated (option : String)
  | missing (name : String)
deriving DecidableEq

def Misuse.message : Misuse → String
  | missingCommand => "a command is required but none was given"
  | unknownCommand name => "unrecognized command '" ++ name ++ "'"
  | unexpected argument => "unexpected argument '" ++ argument ++ "' found"
  | unneededValue option value =>
      "unexpected value '" ++ value ++ "' for '--" ++ option ++ "' found; no more were expected"
  | missingValue option => "a value is required for '--" ++ option ++ "' but none was supplied"
  | repeated option => "the argument '--" ++ option ++ "' cannot be used multiple times"
  | missing name => "the argument '" ++ name ++ "' is required but was not provided"

inductive Halt where
  | help
  | version
  | misuse (misuse : Misuse)
deriving DecidableEq

structure Given where
  switches : List String
  values : List (String × String)
  operands : List String

namespace Given

def empty : Given := { switches := [], values := [], operands := [] }

def has (given : Given) (name : String) : Bool := given.switches.contains name

def valuesOf (given : Given) (name : String) : List String :=
  given.values.filterMap fun value => if value.1 = name then some value.2 else none

def value? (given : Given) (name : String) : Option String := (given.valuesOf name).head?

def addSwitch (given : Given) (name : String) : Except Halt Given :=
  if given.has name then .error (.misuse (.repeated name))
  else .ok { given with switches := given.switches ++ [name] }

def addValue (given : Given) (option : OptionForm) (value : String) : Except Halt Given :=
  if option.shape = .value && (given.value? option.name).isSome then
    .error (.misuse (.repeated option.name))
  else .ok { given with values := given.values ++ [(option.name, value)] }

def addOperand (form : CommandForm) (given : Given) (operand : String) : Except Halt Given :=
  if given.operands.length < form.operandLimit then
    .ok { given with operands := given.operands ++ [operand] }
  else .error (.misuse (.unexpected operand))

end Given

/-! ### Reading -/

/-- Reads letters that are run together. An option at the end may still need its value. -/
def readLetters (form : CommandForm) :
    Given → List Char → Except Halt (Given × Option OptionForm)
  | given, [] => .ok (given, none)
  | given, letter :: rest =>
      if letter = 'h' then .error .help
      else
        match form.options.find? fun option => option.letter? == some letter with
        | none => .error (.misuse (.unexpected (String.ofList ['-', letter])))
        | some option =>
            match option.shape, rest with
            | .switch, _ => do readLetters form (← given.addSwitch option.name) rest
            | _, [] => .ok (given, some option)
            | _, '=' :: value => return (← given.addValue option (String.ofList value), none)
            | _, value => return (← given.addValue option (String.ofList value), none)

def readName (form : CommandForm) (given : Given) (text : List Char) :
    Except Halt (Given × Option OptionForm) :=
  let name := String.ofList (text.takeWhile (· != '='))
  let value? := match text.dropWhile (· != '=') with
    | '=' :: value => some (String.ofList value)
    | _ => none
  if name = "help" then
    match value? with
    | none => .error .help
    | some value => .error (.misuse (.unneededValue name value))
  else
    match form.options.find? fun option => option.name == name with
    | none => .error (.misuse (.unexpected ("--" ++ name)))
    | some option =>
        match option.shape, value? with
        | .switch, none => return (← given.addSwitch name, none)
        | .switch, some value => .error (.misuse (.unneededValue name value))
        | _, none => .ok (given, some option)
        | _, some value => return (← given.addValue option value, none)

def isPlain (argument : String) : Bool :=
  match argument.toList with
  | '-' :: _ :: _ => false
  | _ => true

def readFrom (form : CommandForm) :
    Option OptionForm → Given → List String → Except Halt Given
  | none, given, [] => .ok given
  | some option, _, [] => .error (.misuse (.missingValue option.name))
  | some option, given, argument :: rest =>
      if isPlain argument then do readFrom form none (← given.addValue option argument) rest
      else .error (.misuse (.missingValue option.name))
  | none, given, argument :: rest =>
      match argument.toList with
      | ['-', '-'] => rest.foldlM (Given.addOperand form) given
      | '-' :: '-' :: text => do
          let (after, waiting?) ← readName form given text
          readFrom form waiting? after rest
      | '-' :: letter :: text => do
          let (after, waiting?) ← readLetters form given (letter :: text)
          readFrom form waiting? after rest
      | _ => do readFrom form none (← given.addOperand form argument) rest

def readArguments (form : CommandForm) (arguments : List String) : Except Halt Given :=
  readFrom form none .empty arguments

end TemplateFill.CommandLine
