import TemplateFill.Json.Outline
import TemplateFill.Json.Printer
import TemplateFill.Text.Occurrences
import TemplateFill.Url.Parser

/-!
Where a repository is found: its base URL, the paths below it, and the time a request may take.

A configuration text is a record whose fields all have defaults. Its base URL has to be a URL.
-/

namespace TemplateFill

structure RepositoryConfig where
  baseUrl : String := "http://localhost:8081"
  submodelPath : String := "/submodels"
  referencePath : String := "/submodel-references"
  templatePath : String := "/templates"
  /-- The time a request may take, in milliseconds -/
  requestTimeout : UInt64 := 30000
deriving DecidableEq

inductive ConfigError where
  | malformed
  | invalidBaseUrl (url : String) (source : UrlError)
deriving DecidableEq

namespace ConfigError

def message : ConfigError → String
  | malformed => "Invalid repository configuration: " ++ Json.malformedMessage
  | invalidBaseUrl url source =>
      "Invalid repository base URL '" ++ url ++ "': " ++ source.message

def sourceMessage : ConfigError → String
  | malformed => Json.malformedMessage
  | invalidBaseUrl _ source => source.message

end ConfigError

namespace RepositoryConfig

/-! ### URLs -/

def validate (config : RepositoryConfig) : Except ConfigError Unit :=
  match Url.parse config.baseUrl with
  | .ok _ => .ok ()
  | .error source => .error (.invalidBaseUrl config.baseUrl source)

def below (path rest : String) : String :=
  String.ofList (Text.trimEnd '/' path.toList) ++ "/" ++ rest

def endpoint (config : RepositoryConfig) (path : String) : Except UrlError Url :=
  Url.parse (below config.baseUrl (String.ofList (Text.trimStart '/' path.toList)))

/-! ### Text -/

def layout : Json.RecordLayout :=
  [("baseUrl", .defaulted), ("submodelPath", .defaulted), ("submodelReferencePath", .defaulted),
    ("templatePath", .defaulted), ("requestTimeoutMs", .defaulted)]

def toJson (config : RepositoryConfig) : Json :=
  .object [
    ("baseUrl", .text config.baseUrl),
    ("submodelPath", .text config.submodelPath),
    ("submodelReferencePath", .text config.referencePath),
    ("templatePath", .text config.templatePath),
    ("requestTimeoutMs", .integer config.requestTimeout.toNat)]

def fieldOr {α : Type} (value? : List Char → Option α) (given : α) : Option (List Char) → Option α
  | none => some given
  | some text => value? text

def read? (text : List Char) : Option RepositoryConfig := do
  let usual : RepositoryConfig := {}
  match ← Json.fields? layout text with
  | [baseUrl, submodelPath, referencePath, templatePath, requestTimeout] =>
      return {
        baseUrl := ← fieldOr Json.textField? usual.baseUrl baseUrl
        submodelPath := ← fieldOr Json.textField? usual.submodelPath submodelPath
        referencePath := ← fieldOr Json.textField? usual.referencePath referencePath
        templatePath := ← fieldOr Json.textField? usual.templatePath templatePath
        requestTimeout := ← fieldOr Json.wordField? usual.requestTimeout requestTimeout }
  | _ => none

def parse (text : String) : Except ConfigError RepositoryConfig :=
  match read? text.toList with
  | none => .error .malformed
  | some config => config.validate.map fun _ => config

end RepositoryConfig

end TemplateFill
