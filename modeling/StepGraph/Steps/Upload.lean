import StepGraph.Condition
import StepGraph.File.Payload
import StepGraph.Service.Profile
import StepGraph.Service.Delivery
import StepGraph.Steps.Rename

/-! Uploading the scanned document or the data file of a run. -/
namespace StepGraph.Steps

def unsupportedUpload (type : String) : Fault :=
  .configuration ("Unsupported uploadType '" ++ type ++ "'")

/-- What is uploaded: the configured kind of file, or else the run's data file. -/
def uploadKind (config : Value) (dataKind : FileKind) : Except Fault FileKind := do
  let type := Text.lower (← ((config.field "uploadType").orElse (.text dataKind.extension)).display)
  match FileKind.ofExtension? type with
  | some k => return k
  | none => throw (unsupportedUpload type)

def pdfOf (run : Run) : Work ByteArray := do Work.of (Payload.pdf (← run.entryValue "pdfBase64"))

def dataOf (run : Run) : Work ByteArray := do
  Work.of (Payload.serialize (← run.entryValue "extractedData") run.dataKind)

def bytesOf (run : Run) (kind : FileKind) : Work ByteArray :=
  match kind with
  | .pdf => pdfOf run
  | _ => dataOf run

def nameText (v : Value) : Except Fault String :=
  match v with
  | .text s => .ok s
  | _ => .error .wrongKind

def responseName? (run : Run) (config : Value) (kind : FileKind) : Work (Option String) := do
  let path := config.field "filenameSourcePath"
  if !(config.field "useApiResponseForFilename").truthy || !path.truthy then return none
  let v ← Work.read (← Work.edit (Edit.lookup run.last path))
  if Condition.isBlank v then return none
  let name := FileName.sanitized (← Work.of v.asText)
  return some (fileName (FileName.withoutExtension name) kind)

/-- The name of an uploaded file: from the last response, from an earlier renaming, from the
scanned document, from the fallback. -/
def uploadName (run : Run) (config : Value) (kind : FileKind) : Work Value := do
  if let some name ← responseName? run config kind then return .text name
  let renamed ← run.entryValue (renamedKey kind)
  if renamed.truthy then return renamed
  let pdf ← run.entryValue "pdfFilename"
  if pdf.truthy then
    return .text (fileName (FileName.withoutExtension (← Work.of (nameText pdf))) kind)
  let fallback := config.field "fallbackFilename"
  if fallback.truthy then
    let name := FileName.sanitized (← Work.of (nameText fallback))
    return .text (fileName (FileName.withoutExtension name) kind)
  return .text (fileName "document" kind)

def uploadDirectory (run : Run) (config : Value) (p : SftpSettings) (kind : FileKind) :
    Work String := do
  let override := config.field "sftpPathOverride"
  if override.truthy then resolveName run override
  else return Sftp.rootIfEmpty ((p.directory kind).getD "")

def sftpUpload (run : Run) (node : Step Item) : Work Outcome := do
  let config ← Work.read node.config
  let kind ← Work.of (uploadKind config run.dataKind)
  let data ← bytesOf run kind
  let name ← uploadName run config kind
  Work.require .profiles
  let p ← Profile.sftp (config.field "sftpConfigId")
  let directory ← uploadDirectory run config p kind
  Work.require .sftp
  let path ← Sftp.upload p directory name data
  let nameItem ← Work.plant name
  if kind == run.dataKind then run.set "actualFilename" nameItem
  let strategy := (config.field "pdfUploadStrategy").orElse (.text "all_pages_in_group")
  let output ← Work.newObject [("uploadType", .text kind.extension), ("remotePath", .text path),
    ("filename", nameItem), ("bytesUploaded", .int data.size),
    ("pdfUploadStrategy", ← Work.plant strategy)]
  return { output := output }

end StepGraph.Steps
