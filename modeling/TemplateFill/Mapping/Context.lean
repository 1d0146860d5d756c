import TemplateFill.Document.Edit
import TemplateFill.Document.Location
import TemplateFill.Path.Error

/-!
The state of one mapping run, and the failures that end it.

A failure carries its cause, the log so far and, if a qualifier is being processed, that qualifier's
value and its location in the working document.
-/

namespace TemplateFill

/-! ### Causes -/

inductive Mismatch where
  | missingModelType
  | missingValueMember
  | notACollection (found : String)
  | edit (error : EditError)
  | described (message : String)
deriving DecidableEq

def Mismatch.message : Mismatch → String
  | missingModelType => "could not find matching modelType field of a qualify object"
  | missingValueMember => "could not find matching value field of a qualify object"
  | notACollection found =>
      "Expected modelType 'SubmodelElementCollection', but found '" ++ found ++ "'."
  | edit error => error.message
  | described message => message

inductive Cause where
  | pathNotFound (path : String)
  | invalidPath (path : String) (source : PathError)
  | structuralMismatch (mismatch : Mismatch)
  | missingMappingValue
  | mandatoryMappingMissing (path : String)
  | missingIdentifier
deriving DecidableEq

namespace Cause

def message : Cause → String
  | pathNotFound path => "could not find " ++ path ++ " in data json"
  | invalidPath _ source => source.message
  | structuralMismatch mismatch => mismatch.message
  | missingMappingValue => "Mapping Info cannot be null"
  | mandatoryMappingMissing path => "Mandatory mapping '" ++ path ++ "' not found."
  | missingIdentifier => "Could not find id property in template"

def ofPathError : PathError → Cause
  | .notFound path => pathNotFound path
  | .invalid path source => invalidPath path (.invalid path source)
  | .multipleMatches path count => invalidPath path (.multipleMatches path count)

def ofEditError (error : EditError) : Cause := structuralMismatch (.edit error)

end Cause

structure Failure where
  cause : Cause
  logs : List String
  qualifier? : Option Json
  location? : Option String

/-! ### State -/

/-- The inputs of a run, and what it has come to. The moment of the run heads its log lines. -/
structure Context where
  template : Json
  data : Json
  language : String
  newId : String
  moment : String
  working : Document
  logs : List String
  qualifier? : Option NodeId

namespace Context

def start (template data : Json) (language newId moment : String) : Context :=
  { template, data, language, newId, moment
    working := Document.ofJson (.object [])
    logs := []
    qualifier? := none }

def log (context : Context) (message : String) : Context :=
  { context with logs := context.logs ++ ["[" ++ context.moment ++ "] - " ++ message] }

def failure (context : Context) (cause : Cause) : Failure :=
  { cause
    logs := context.logs
    qualifier? := context.qualifier?.map context.working.nodeToJson
    location? := context.qualifier?.bind context.working.location? }

def require {α : Type} (context : Context) (cause : Cause) : Option α → Except Failure α
  | some value => .ok value
  | none => .error (context.failure cause)

def edited {α : Type} (context : Context) : Except EditError α → Except Failure α
  | .ok value => .ok value
  | .error error => .error (context.failure (Cause.ofEditError error))

def selected {α : Type} (context : Context) : Except PathError α → Except Failure α
  | .ok value => .ok value
  | .error error => .error (context.failure (Cause.ofPathError error))

end Context

end TemplateFill
