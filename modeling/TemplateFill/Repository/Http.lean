import TemplateFill.Batch.Identifier
import TemplateFill.Batch.Services
import TemplateFill.Repository.Config

/-!
The services of a repository that is reached over HTTP.

A request is refused if its endpoint is no URL or a URL of another scheme. The library has no
network of its own, so a request over HTTP finds nobody to answer it.
-/

namespace TemplateFill

namespace RepositoryConfig

def isHttp (url : Url) : Bool := url.scheme == "http" || url.scheme == "https"

/-- Sends a request to a URL. Credentials travel apart from the URL and are not shown. -/
def send (url : Url) : TransportError :=
  if isHttp url then .unreachable url.withoutCredentials.text
  else .unsupportedScheme url.withoutCredentials.text

def request (config : RepositoryConfig) (path : String) : ServiceError :=
  match config.endpoint path with
  | .error error => .invalidEndpoint error
  | .ok url => .transport (send url)

def templateLocation (config : RepositoryConfig) (encodedId : String) : String :=
  below config.templatePath encodedId

/-- The services of a repository. Their world is the source of identifiers, which reads the clock at
one moment. -/
def services (config : RepositoryConfig) (moment : Moment) : Services IdSource where
  fetch encodedId := return .error (config.request (config.templateLocation encodedId))
  drawIds count := fun source =>
    let (drawn, after) := source.draw (List.replicate count moment)
    (.ok drawn, after)
  post path _ := return .error (config.request path)

end RepositoryConfig

end TemplateFill
