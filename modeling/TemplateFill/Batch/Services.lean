import TemplateFill.Json.Basic
import TemplateFill.Url.Host

/-!
What a batch asks of others: templates, fresh identifiers and room in a repository.

Every service may fail. The services share a world that each call may change.
-/

namespace TemplateFill

inductive TransportError where
  /-- Only `http` and `https` can be asked. -/
  | unsupportedScheme (url : String)
  | unreachable (url : String)
deriving DecidableEq

def TransportError.message : TransportError → String
  | unsupportedScheme url => "builder error for url (" ++ url ++ ")"
  | unreachable url => "error sending request for url (" ++ url ++ ")"

inductive ServiceError where
  | transport (error : TransportError)
  | status (code : Nat) (body : String)
  | invalidEndpoint (error : UrlError)
  | invalidPayload (message : String)
  | other (message : String)
deriving DecidableEq

def ServiceError.message : ServiceError → String
  | transport error => "HTTP request failed: " ++ error.message
  | status code body => "Repository responded with status " ++ toString code ++ ": " ++ body
  | invalidEndpoint error => "Invalid endpoint URL: " ++ error.message
  | invalidPayload message => "Invalid JSON payload: " ++ message
  | other message => message

structure Services (World : Type) where
  fetch : String → StateM World (Except ServiceError Json)
  drawIds : Nat → StateM World (Except ServiceError (List String))
  post : String → String → StateM World (Except ServiceError Unit)

end TemplateFill
