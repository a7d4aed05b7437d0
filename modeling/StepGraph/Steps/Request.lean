import StepGraph.Http.Target
import StepGraph.Run.State
import StepGraph.Service.Http
import StepGraph.Service.Profile
import StepGraph.Context.Mapping

/-!
Steps that call an API: with an address of their own, or with an endpoint of a profile. The
response is kept, and parts of it are copied into the context.
-/
namespace StepGraph.Steps

def methodOf (config : Value) (name default : String) : Except Fault String := do
  return Text.upper (← ((config.field name).orElse (.text default)).display)

def isBodiless (method : String) : Bool := ["GET", "DELETE", "HEAD"].contains method

def bodyEscape {κ : Type} (node : Step κ) : Template.Escape :=
  if node.escapeQuotes then Template.doubleQuotes else id

/-- A template of the configuration; one that counts as false is empty. -/
def templated (config : Value) (name : String) (scope : Scope) : Except Fault String :=
  Template.resolve scope ((config.field name).orElse (.text ""))

def bodyOf {κ : Type} (node : Step κ) (config : Value) (name : String) (scope : Scope) :
    Except Fault (Option String) :=
  let template := config.field name
  if template.truthy then some <$> Template.resolveWith scope template (bodyEscape node) none
  else .ok none

def statusFault (r : Response) (body : Value) (message : String) (output : Value) : Fault :=
  .stepFault (.status r.status r.reason body) message output

def refused (r : Response) (request : HttpRequest) : Work Fault := do
  let body ← Work.read r.body
  return statusFault r body
    ("API call failed with status " ++ toString r.status ++ ": " ++ r.reason)
    (.object [("url", .text request.url), ("method", .text request.method),
      ("responseStatus", .int r.status), ("statusText", .text r.reason), ("responseData", body),
      ("error", body)])

def fetch (request : HttpRequest) : Work Response := do
  let r ← Http.send request
  if r.isSuccess then return r else throw (← refused r request)

def applyMappings (run : Run) (config : Value) (response : Item) : Work Unit :=
  discard <| Work.edit
    (Mapping.respondAll run.context response (config.field "responseDataMappings"))

def apiCall (run : Run) (node : Step Item) : Work Outcome := do
  let config ← Work.read node.config
  let scope ← run.scope
  Work.require .http
  let method ← Work.of (methodOf config "method" "POST")
  let url ← Work.of (templated config "url" scope)
  let headers ← Work.of (Http.readHeaders (config.field "headers") scope)
  let body ← Work.of (bodyOf node config "requestBody" scope)
  let input ← Work.newObject [("config", node.config), ("extractedData", ← run.entry "extractedData"),
    ("resolvedRequestBody", .ofText? body)]
  let sent := if isBodiless method then none else body
  let r ← fetch
    { method := method, url := url, headers := Http.withContentType headers, content := sent }
  applyMappings run config r.body
  return { output := r.body, response := r.body, input := some input }

def noBaseUrl (source : String) : Fault :=
  .configuration ("API base URL is not configured for source '" ++ source ++ "'")

def sourceOf (config : Value) (default : String) : Value :=
  (config.field "apiSourceType").orElse (.text default)

def profileOf (config : Value) (default : String) : Work Profile.Api := do
  Work.require .profiles
  Profile.api (sourceOf config default) (config.field "secondaryApiId")

def endpointUrl (p : Profile.Api) (config : Value) (scope : Scope) : Except Fault String := do
  let path ← Http.endpointPath config scope
  return Http.address p.baseUrl path (← Http.queryParameters config scope)

def documentHeaders : Http.Headers :=
  [("Content-Type", "application/json"), ("Accept", "application/json")]

def apiEndpoint (run : Run) (node : Step Item) : Work Outcome := do
  let config ← Work.read node.config
  let scope ← run.scope
  Work.require .http
  let p ← profileOf config "main"
  if p.baseUrl.isEmpty then
    throw (noBaseUrl (← Work.of (sourceOf config "main").display))
  let method ← Work.of (methodOf config "httpMethod" "GET")
  let url ← Work.of (endpointUrl p config scope)
  let body ←
    if isBodiless method then pure none
    else Work.of (bodyOf node config "requestBodyTemplate" scope)
  let r ← fetch
    { method := method, url := url, headers := Entries.merge documentHeaders p.authHeaders,
      content := body }
  applyMappings run config r.body
  let output ← Work.newObject [("url", .text url), ("method", .text method),
    ("responseStatus", .int r.status), ("responseData", r.body)]
  return { output := output, response := r.body }

end StepGraph.Steps
