import StepGraph.Http.Form
import StepGraph.Steps.Request
import StepGraph.Steps.Upload

/-! Posting a form of several parts: the scanned document, texts and filled-in documents. -/
namespace StepGraph.Steps

def noFormUrl : Fault := .configuration "Multipart upload has no URL"

def isAbsolute (url : String) : Bool :=
  let url := Text.lower url
  Text.startsWith url "http://" || Text.startsWith url "https://"

/-- Headers and address of the form; a profile completes addresses that are relative to it. -/
def formTarget (config : Value) (scope : Scope) : Work (Http.Headers × String) := do
  let url ← Work.of (templated config "url" scope)
  match sourceOf config "none" with
  | .text "none" => return ([], url)
  | source =>
    let p ← profileOf config "none"
    if isAbsolute url then return (p.authHeaders, url)
    if p.baseUrl.isEmpty then throw (noBaseUrl (← Work.of source.display))
    return (p.authHeaders, Http.address p.baseUrl url [])

def formFilename (run : Run) (config : Value) (scope : Scope) : Work Value := do
  let name := FileName.sanitized (← Work.of (templated config "filenameTemplate" scope))
  if !name.isEmpty then return .text name
  return (← run.firstEntry ["renamedPdfFilename", "pdfFilename"]).orElse (.text "document.pdf")

abbrev BuiltPart := FormPart × Value

def filePart (run : Run) (part name filename : Value) : Work BuiltPart := do
  let data ← pdfOf run
  let type := (part.field "contentType").orElse (.text FileKind.pdf.contentType)
  return (⟨name, filename, data, type⟩,
    .object [("name", name), ("type", .text "file"), ("filename", filename),
      ("size", .ofNat data.size)])

def partText (scope : Scope) (item : Item) (part : Value) : Work (String × String) := do
  if (part.field "fieldMappings").truthy then
    return (← Work.edit (Http.JsonPart.build item scope), FileKind.json.contentType)
  else return (← Work.of (templated part "value" scope), "text/plain")

def textPart (scope : Scope) (item : Item) (part name : Value) : Work BuiltPart := do
  let (text, usual) ← partText scope item part
  let type := (part.field "contentType").orElse (.text usual)
  return (⟨name, .null, text.toUTF8, type⟩,
    .object [("name", name), ("type", .text "text"), ("value", .text text)])

def buildPart (run : Run) (scope : Scope) (filename : Value) (item : Item) :
    Work (Option BuiltPart) := do
  let part ← Work.read item
  let name ← Work.of (part.member "name")
  if !name.truthy then return none
  match part.field "type" with
  | .text "file" => some <$> filePart run part name filename
  | _ => some <$> textPart scope item part name

def formRefused (r : Response) (url : String) (parts : List Value) : Work Fault := do
  let body ← Work.read r.body
  return statusFault r body
    ("Multipart upload failed with status " ++ toString r.status ++ ": " ++ r.reason)
    (.object [("url", .text url), ("responseStatus", .int r.status),
      ("statusText", .text r.reason), ("responseData", body), ("parts", .list parts)])

def formParts (run : Run) (node : Step Item) (scope : Scope) (filename : Value) :
    Work (List BuiltPart) := do
  let s ← Work.store
  let items ← Work.of (s.view.optionalParts (s.field node.config "formParts"))
  return (← items.mapM (buildPart run scope filename)).filterMap id

def multipartUpload (run : Run) (node : Step Item) : Work Outcome := do
  let config ← Work.read node.config
  let scope ← run.scope
  let (headers, url) ← formTarget config scope
  if url.isEmpty then throw noFormUrl
  let filename ← formFilename run config scope
  let built ← formParts run node scope filename
  Work.require .http
  let r ← Http.send
    { method := "POST", url := url, headers := headers, files := some (built.map Prod.fst) }
  let summary := built.map Prod.snd
  if !r.isSuccess then throw (← formRefused r url summary)
  let output ← Work.newObject [("url", .text url), ("responseStatus", .int r.status),
    ("responseData", r.body), ("parts", ← Work.plant (.list summary))]
  return { output := output }

end StepGraph.Steps
