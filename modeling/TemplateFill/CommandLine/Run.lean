import TemplateFill.Batch.Run
import TemplateFill.CommandLine.Command
import TemplateFill.Json.Reader
import TemplateFill.Mapping.Pipeline
import TemplateFill.Path.Printer
import TemplateFill.Path.Query
import TemplateFill.Repository.Http

/-!
Running commands: what they read, what they write, and the status they end with.

A command reads its inputs in a fixed order and stops at the first that it cannot use. It ends with
status 0 on success, 1 if the inputs are at fault, and 2 if the arguments are.
-/

namespace TemplateFill.CommandLine

/-! ### Surroundings -/

inductive FileError where
  | notFound
  | notADirectory
  | isADirectory
  | permissionDenied
  | notText
  | other (message : String)
deriving DecidableEq

def FileError.message : FileError → String
  | notFound => "No such file or directory (os error 2)"
  | notADirectory => "Not a directory (os error 20)"
  | isADirectory => "Is a directory (os error 21)"
  | permissionDenied => "Permission denied (os error 13)"
  | notText => "stream did not contain valid UTF-8"
  | other message => message

structure Surroundings (m : Type → Type) where
  fileText : String → m (Except FileError String)
  inputText : m (Except FileError String)
  storeFile : String → String → m (Except FileError Unit)

/-! ### Errors -/

inductive CommandError where
  | unreadableFile (name : String) (error : FileError)
  | unreadableInput (error : FileError)
  | malformedFile (name : String)
  | malformedInput
  | invalidPath (path : String) (source : ParseError)
  | invalidConfig (name : String) (source : ConfigError)
  | unwritableFile (name : String) (error : FileError)
deriving DecidableEq

def CommandError.message : CommandError → String
  | unreadableFile name error => "reading file '" ++ name ++ "': " ++ error.message
  | unreadableInput error => "reading from stdin: " ++ error.message
  | malformedFile name => "parsing JSON in '" ++ name ++ "': " ++ Json.malformedMessage
  | malformedInput => "parsing JSON from stdin: " ++ Json.malformedMessage
  | invalidPath path source => (PathError.invalid path source).message ++ ": " ++ source.message
  | invalidConfig name source =>
      "loading configuration '" ++ name ++ "': " ++ source.message ++ ": " ++ source.sourceMessage
  | unwritableFile name error => "writing file '" ++ name ++ "': " ++ error.message

/-! ### Outcomes -/

structure Outcome where
  status : Nat
  output : String
  errors : String
deriving DecidableEq

namespace Outcome

def success (output : String) : Outcome := { status := 0, output, errors := "" }

def ofError (error : CommandError) : Outcome :=
  { status := 1, output := "", errors := "Error: " ++ error.message ++ "\n" }

def version : Outcome := success "smt-mapper 0.2.0\n"

def help : Outcome :=
  success ("Usage: smt-mapper <COMMAND>\n\nCommands:\n"
    ++ "  map       Map source data into a submodel template\n"
    ++ "  select    Evaluate a path against a JSON document\n"
    ++ "  validate  Validate the syntax of a path\n"
    ++ "  generate  Generate instances through the repository\n")

def ofHalt : Halt → Outcome
  | .help => help
  | .version => version
  | .misuse misuse => { status := 2, output := "", errors := "error: " ++ misuse.message ++ "\n" }

end Outcome

/-! ### Inputs -/

section

variable {m : Type → Type} [Monad m]

def readText (around : Surroundings m) : Option String → ExceptT CommandError m String
  | some name => (ExceptT.mk (around.fileText name)).adapt (.unreadableFile name)
  | none => (ExceptT.mk around.inputText).adapt .unreadableInput

def readDocument (around : Surroundings m) (name? : Option String) :
    ExceptT CommandError m Json := do
  match Json.parse? (← readText around name?) with
  | some document => return document
  | none =>
      match name? with
      | some name => throw (.malformedFile name)
      | none => throw .malformedInput

def readConfig (around : Surroundings m) : Option String → ExceptT CommandError m RepositoryConfig
  | none => return {}
  | some name => do
      match RepositoryConfig.parse (← readText around (some name)) with
      | .ok config => return config
      | .error source => throw (.invalidConfig name source)

end

/-! ### Commands -/

def written (pretty : Bool) (document : Json) : String :=
  if pretty then document.indented else document.compact

def failureOutcome (failure : Failure) : Outcome :=
  let location := match failure.location? with
    | some location => "Qualifier: " ++ location ++ "\n"
    | none => ""
  let lines := String.join (failure.logs.map fun line => "  " ++ line ++ "\n")
  { status := 1
    output := ""
    errors := "✗ Mapping failed: " ++ failure.cause.message ++ "\n" ++ location ++ lines }

def validateOutcome (path : String) : Outcome :=
  match Segment.parse path with
  | .ok segments =>
      .success ("✓ Path is valid\nNormalized: " ++ Segment.normalPath segments ++ "\n")
  | .error error =>
      { status := 1
        output := ""
        errors := "✗ Invalid path: " ++ error.message ++ "\nPath: " ++ path ++ "\n" }

def errorLine (moment : Moment) (message : String) : String :=
  let indented := message.toList.flatMap fun c => if c = '\n' then "\n    ".toList else [c]
  "[" ++ moment.extended ++ " ERROR smt_mapper::generator] " ++ String.ofList indented ++ "\n"

def batchOutcome (moment : Moment) (batch : Batch) : Outcome :=
  let reports := batch.reports
  { status := if reports.all Report.success then 0 else 1
    output := (Json.array (reports.map Report.toJson)).indented ++ "\n"
    errors := String.join (batch.errorLines.map (errorLine moment)) }

section

variable {m : Type → Type} [Monad m]

def Command.run (around : Surroundings m) (moment : Moment) :
    Command → ExceptT CommandError m Outcome
  | .map template data? language id output? pretty => do
      let template ← readDocument around (some template)
      let data ← readDocument around data?
      match mapTemplate template data language id moment.spaced with
      | .error failure => return failureOutcome failure
      | .ok filled =>
          match output? with
          | none => return .success (written pretty filled ++ "\n")
          | some name => do
              (ExceptT.mk (around.storeFile name (written pretty filled))).adapt
                (.unwritableFile name)
              return .success ""
  | .select path file? pretty =>
      match Segment.parse path with
      | .error source => throw (.invalidPath path source)
      | .ok segments => do
          let document ← readDocument around file?
          let found := (Query.mk path segments).select Json.view document
          return .success (written pretty (.array found) ++ "\n")
  | .validate path => return validateOutcome path
  | .generate config? shellId templateIds data? language idStem => do
      let config ← readConfig around config?
      let data ← readDocument around data?
      let order : Order := { config, shellId, data, language, moment }
      let (batch, _) := (Batch.generate (config.services moment) (fun _ => 0) order templateIds).run
        { stem := idStem }
      return batchOutcome moment batch

def run (around : Surroundings m) (moment : Moment) (arguments : List String) : m Outcome := do
  match Command.ofArguments arguments with
  | .error halt => return .ofHalt halt
  | .ok command =>
      match ← (command.run around moment).run with
      | .ok outcome => return outcome
      | .error error => return .ofError error

end

end TemplateFill.CommandLine
