import TemplateFill.Batch.Reference
import TemplateFill.Batch.Report
import TemplateFill.Batch.Services
import TemplateFill.Mapping.Pipeline
import TemplateFill.Repository.Config
import TemplateFill.Text.Base64Url
import TemplateFill.Text.Letters
import TemplateFill.Time.Moment

/-!
The work on one template of a batch, as a machine that asks one service at each turn.

A template is fetched, an identifier is drawn, the instance is posted, and then a reference to it is
posted to the shell. The first failure ends the work, so nothing is posted after it.
-/

namespace TemplateFill

structure Order where
  config : RepositoryConfig
  /-- The encoded identifier of the shell that the instances belong to -/
  shellId : String
  data : Json
  language : String
  moment : Moment

inductive Stage where
  | fetching
  | drawing (template : Json)
  /-- The instance waits to be posted; its identifiers are the drawn one and the one it holds. -/
  | posting (newId : String) (filled : Json) (submodelId : String)
  | referencing (newId submodelId : String)
  /-- The work has ended, and a failure may have left a line for the error log. -/
  | finished (report : Report) (errorLine? : Option String)

namespace Stage

def report? : Stage → Option Report
  | finished report _ => some report
  | _ => none

/-! ### Failures -/

def fetchFailed (templateId : String) (error : ServiceError) : Stage :=
  finished
    (.failed templateId
      ("Failed to fetch template from custom template provider: " ++ error.message))
    (some ("Failed to fetch template from custom template provider. TemplateId: " ++ templateId
      ++ ", Message: " ++ error.message))

def shortNameMissing (templateId : String) : Stage :=
  finished (.failed templateId ("template idShort of " ++ templateId ++ " needs to be not null")) none

def drawFailed (templateId : String) (error : ServiceError) : Stage :=
  finished (.failed templateId "could not generate submodel id")
    (some ("Could not generate submodel id. TemplateId: " ++ templateId ++ ", Message: "
      ++ error.message))

def mapFailed (templateId : String) (failure : Failure) : Stage :=
  finished (.mappingFailed templateId failure)
    (some ("Failed to map data to instance. TemplateId: " ++ templateId ++ ", Message: "
      ++ failure.cause.message))

def storeFailed (order : Order) (templateId message : String) : Stage :=
  finished (.failed templateId message)
    (some ("Failed to add submodel to AAS. TemplateId: " ++ templateId ++ ", AasId: "
      ++ order.shellId ++ ", Message: " ++ message))

/-! ### Answers -/

def fetched (templateId : String) : Except ServiceError Json → Stage
  | .error error => fetchFailed templateId error
  | .ok template =>
      match template.stringMember? Key.idShort with
      | none => shortNameMissing templateId
      | some _ => drawing template

def noIdentifier : ServiceError := .other "id generator returned no ids"

def firstDrawn : Except ServiceError (List String) → Except ServiceError String
  | .error error => .error error
  | .ok [] => .error noIdentifier
  | .ok (id :: _) => .ok id

def mapped (order : Order) (templateId newId : String) (filled : Json) : Stage :=
  if Text.isBlankText order.shellId then
    storeFailed order templateId "The aas id cannot be empty!"
  else
    match (filled.stringMember? Key.id).filter fun id => !Text.isBlankText id with
    | none => storeFailed order templateId "The submodel id cannot be empty!"
    | some submodelId => posting newId filled submodelId

def drawn (order : Order) (templateId : String) (template : Json)
    (answer : Except ServiceError (List String)) : Stage :=
  match firstDrawn answer with
  | .error error => drawFailed templateId error
  | .ok newId =>
      match mapTemplate template order.data order.language newId order.moment.spaced with
      | .error failure => mapFailed templateId failure
      | .ok filled => mapped order templateId newId filled

def posted (order : Order) (templateId newId submodelId : String) : Except ServiceError Unit → Stage
  | .error error => storeFailed order templateId error.message
  | .ok () => referencing newId submodelId

def referenced (order : Order) (templateId newId : String) : Except ServiceError Unit → Stage
  | .error error => storeFailed order templateId error.message
  | .ok () => finished (.succeeded templateId newId) none

/-! ### Turns -/

/-- Takes one turn: asks one service, and goes on with its answer. -/
def turn {World : Type} (services : Services World) (order : Order) (templateId : String) :
    Stage → StateM World Stage
  | fetching => do
      return fetched templateId (← services.fetch (Text.base64Url templateId))
  | drawing template => do
      return drawn order templateId template (← services.drawIds 1)
  | posting newId filled submodelId => do
      return posted order templateId newId submodelId
        (← services.post order.config.submodelPath filled.compact)
  | referencing newId submodelId => do
      return referenced order templateId newId
        (← services.post (RepositoryConfig.below order.config.referencePath order.shellId)
          (Reference.toSubmodel submodelId).toJson.compact)
  | finished report errorLine? => return finished report errorLine?

end Stage

end TemplateFill
