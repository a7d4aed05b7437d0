import StepGraph.Imaging.Filing
import StepGraph.Steps.Request
import StepGraph.Steps.Upload

/-! Filing the scanned document of a run, or looking one up. -/
namespace StepGraph.Steps

def blankTemplated (config : Value) (name : String) (scope : Scope) : Except Fault String :=
  Template.resolveWith scope ((config.field name).orElse (.text "")) id (some "")

def missingFields (bucket type : Value) (detail : String) : Except Fault Fault := do
  return .configuration ("Imaging step missing required fields. bucketId: " ++
    (← bucket.display) ++ ", documentTypeId: " ++ (← type.display) ++ ", detailLineId: " ++ detail)

def submission (run : Run) (config : Value) (scope : Scope) (detail : String) :
    Work Filing.Submission := do
  let bill ← Work.of (blankTemplated config "billNumber" scope)
  let data ← pdfOf run
  let name ← run.firstEntry ["renamedPdfFilename", "pdfFilename", "originalPdfFilename"]
  let path ←
    if (config.field "storagePath").truthy then
      some <$> Work.of (blankTemplated config "storagePath" scope)
    else pure none
  return { detailLine := detail, billNumber := bill, data := data, filename := name, path := path }

def isGet (mode : Value) : Bool :=
  match mode with
  | .text "get" => true
  | _ => false

def imagingFault (mode bucket : Value) (detail : String) (f : Fault) : Except Fault Fault := do
  if f.isExternal then
    return .stepFault .external ("Imaging " ++ (← mode.display) ++ " failed: " ++ f.message)
      (.object [("imagingMode", mode), ("bucketId", bucket), ("detailLineId", .text detail)])
  else return f

def imagingKeys : List (String × String) :=
  [("documentUrl", "imagingDocumentUrl"), ("documentId", "imagingDocumentId"),
    ("storagePath", "imagingStoragePath")]

def imaging (run : Run) (node : Step Item) : Work Outcome := do
  let config ← Work.read node.config
  let scope ← run.scope
  let mode := (config.field "imagingMode").orElse (.text "put")
  let detail ← Work.of (blankTemplated config "detailLineId" scope)
  let bucket := (config.field "bucketId").orElse (.text "")
  let type := (config.field "documentTypeId").orElse (.text "")
  if !bucket.truthy || !type.truthy || detail.isEmpty then
    throw (← Work.of (missingFields bucket type detail))
  Work.require .documents
  let done ← Work.attempt do
    if isGet mode then Filing.get bucket type detail
    else Filing.put bucket type (← submission run config scope detail)
  match done with
  | .error f => throw (← Work.of (imagingFault mode bucket detail f))
  | .ok result =>
    let output ← Work.plant (.object result)
    imagingKeys.forM fun k => do
      let v := Value.ofOption (Entries.get? result k.1)
      if v.truthy then run.set k.2 (← Work.plant v)
    return { output := output }

end StepGraph.Steps
