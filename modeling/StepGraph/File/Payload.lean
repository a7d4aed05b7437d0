import StepGraph.File.Name
import StepGraph.Json.Reader
import StepGraph.Text.Base64
import StepGraph.Text.Charset
import StepGraph.Value.Text

/-!
The payload of a run: how submitted data becomes a value, and how a value becomes the bytes of a
data file. Text and bytes are sent as they are; everything else is written as a document.
-/
namespace StepGraph.Payload

def noPdf : Fault := .configuration "No PDF payload (pdfBase64) available in context"

def notBase64 (r : Text.Base64.Refusal) : Fault :=
  .configuration ("pdfBase64 is not valid base64: " ++ r.message)

def decoded (s : String) : Except Fault ByteArray :=
  match Text.Base64.decode s with
  | .ok b => .ok b
  | .error r => .error (notBase64 r)

def bytesText (b : ByteArray) : String :=
  String.ofList (b.toList.map fun n => Char.ofNat n.toNat)

def pdf (v : Value) : Except Fault ByteArray :=
  if !v.truthy then .error noPdf
  else
    match v with
    | .text s => decoded s
    | .bytes b => decoded (String.ofList ((bytesText b).toList.filter fun c => c.toNat < 0x80))
    | _ => .error .wrongKind

def serialize (v : Value) (kind : FileKind) : Except Fault ByteArray :=
  match v with
  | .bytes b => .ok b
  | .text s => .ok s.toUTF8
  | v =>
    match kind with
    | .json => String.toUTF8 <$> v.json Json.indented
    | _ => String.toUTF8 <$> v.asText

def documentOr (default : Value) (s : String) : Except Fault Value :=
  match Json.parse s with
  | .ok v => .ok v
  | .error .tooDeep => .error (.malformed .tooDeep)
  | .error (.tooManyDigits n) => .error (.malformed (.tooManyDigits n))
  | .error (.complaint _ _ _ _) => .ok default

def csvFormat : String := "CSV"

/-- Data submitted with a request. Text is a document unless the format is CSV. -/
def inline (raw : Value) (format : String) : Except Fault Value :=
  match raw with
  | .null => .ok (.object [])
  | .text s =>
    if Text.isBlankText s then .ok (.object [])
    else if format == csvFormat then .ok (.text s)
    else documentOr (.object []) s
  | v => .ok v

end StepGraph.Payload
