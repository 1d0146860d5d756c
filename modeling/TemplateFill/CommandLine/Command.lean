import TemplateFill.CommandLine.Arguments

/-!
The commands of the program, and the arguments that name them.
-/

namespace TemplateFill.CommandLine

inductive Command where
  | map (template : String) (data? : Option String) (language id : String)
      (output? : Option String) (pretty : Bool)
  | select (path : String) (file? : Option String) (pretty : Bool)
  | validate (path : String)
  | generate (config? : Option String) (shellId : String) (templateIds : List String)
      (data? : Option String) (language idStem : String)
deriving DecidableEq

namespace Command

/-! ### Forms -/

def mapForm : CommandForm :=
  { options := [
      ⟨"template", some 't', .value⟩, ⟨"data", some 'd', .value⟩, ⟨"language", some 'l', .value⟩,
      ⟨"id", none, .value⟩, ⟨"output", some 'o', .value⟩, ⟨"pretty", some 'p', .switch⟩]
    operandLimit := 0 }

def selectForm : CommandForm :=
  { options := [⟨"file", some 'f', .value⟩, ⟨"pretty", some 'p', .switch⟩], operandLimit := 1 }

def validateForm : CommandForm := { options := [], operandLimit := 1 }

def generateForm : CommandForm :=
  { options := [
      ⟨"config", some 'c', .value⟩, ⟨"aas-id", none, .value⟩, ⟨"template", some 't', .values⟩,
      ⟨"data", some 'd', .value⟩, ⟨"language", some 'l', .value⟩, ⟨"id-prefix", none, .value⟩]
    operandLimit := 0 }

/-! ### Commands -/

def usualLanguage : String := "en"

def usualStem : String := "urn:smt-mapper:sm:"

def required {α : Type} (name : String) : Option α → Except Halt α
  | some value => .ok value
  | none => .error (.misuse (.missing name))

def ofMapArguments (arguments : List String) : Except Halt Command := do
  let given ← readArguments mapForm arguments
  let template ← required "--template" (given.value? "template")
  let id ← required "--id" (given.value? "id")
  return .map template (given.value? "data") ((given.value? "language").getD usualLanguage) id
    (given.value? "output") (given.has "pretty")

def ofSelectArguments (arguments : List String) : Except Halt Command := do
  let given ← readArguments selectForm arguments
  let path ← required "<PATH>" given.operands.head?
  return .select path (given.value? "file") (given.has "pretty")

def ofValidateArguments (arguments : List String) : Except Halt Command := do
  let given ← readArguments validateForm arguments
  let path ← required "<PATH>" given.operands.head?
  return .validate path

def ofGenerateArguments (arguments : List String) : Except Halt Command := do
  let given ← readArguments generateForm arguments
  let shellId ← required "--aas-id" (given.value? "aas-id")
  match given.valuesOf "template" with
  | [] => .error (.misuse (.missing "--template"))
  | templateIds =>
      return .generate (given.value? "config") shellId templateIds (given.value? "data")
        ((given.value? "language").getD usualLanguage) ((given.value? "id-prefix").getD usualStem)

def all : List (String × (List String → Except Halt Command)) :=
  [("map", ofMapArguments), ("select", ofSelectArguments), ("validate", ofValidateArguments),
    ("generate", ofGenerateArguments)]

def helpOn : List String → Halt
  | [] => .help
  | [name] =>
      if name = "help" || all.any (fun command => command.1 == name) then .help
      else .misuse (.unknownCommand name)
  | _ :: name :: _ => .misuse (.unknownCommand name)

def ofArguments : List String → Except Halt Command
  | [] => .error (.misuse .missingCommand)
  | first :: rest =>
      match first.toList with
      | ['-', '-'] => .error (.misuse .missingCommand)
      | '-' :: '-' :: _ =>
          if first = "--help" then .error .help
          else if first = "--version" then .error .version
          else .error (.misuse (.unexpected first))
      | '-' :: 'h' :: _ => .error .help
      | '-' :: 'V' :: _ => .error .version
      | '-' :: _ :: _ => .error (.misuse (.unexpected first))
      | _ =>
          if first = "help" then .error (helpOn rest)
          else
            match all.find? fun command => command.1 == first with
            | some (_, read) => read rest
            | none => .error (.misuse (.unknownCommand first))

end Command

end TemplateFill.CommandLine
