import StepGraph.Edit
import StepGraph.File.Payload
import StepGraph.Text.Quoted
import StepGraph.Service.Call
import StepGraph.Template
import StepGraph.Text.Search
import StepGraph.Value.Cast
import StepGraph.Value.Text

/-!
Bodies that carry named fields: one line of pairs, or one part for each field and file with a
boundary between them. The own document of a part is filled in from field mappings; a document that
stands in the configuration as an object is filled in where it stands.
-/
namespace StepGraph.Http.JsonPart

def start (part : Item) : Edit Item := do
  let s ← get
  let raw := s.view.orElse (s.field part "value") (.text "\x7b\x7d")
  match s.layer raw with
  | .list _ => return raw
  | .object _ => return raw
  | .scalar (.text t) => do
    match ← Edit.of (Payload.documentOr (.object []) t) with
    | .scalar _ => Edit.plant (.object [])
    | doc => Edit.plant doc
  | .scalar _ => Edit.plant (.object [])

/-- The raw value of a mapping; a variable is a template or, without placeholders, a path. -/
def rawValue (scope : Scope) (m : Value) : Except Fault Value :=
  match m.field "type" with
  | .text "variable" => do
    let text ← ((m.field "value").orElse (.text "")).display
    if Template.hasPlaceholders text then .text <$> Template.resolveText scope text id none
    else scope.find text
  | _ => .ok (m.field "value")

def fill (scope : Scope) (doc : Item) (m : Value) : Edit Unit := do
  let name ← Edit.of (m.member "fieldName")
  if !name.truthy then return
  let raw ← Edit.of (rawValue scope m)
  let type := (m.field "dataType").orElse (.text "string")
  let x ← Edit.plant (← Edit.of (raw.cast (Value.Cast.DataType.ofValue type)))
  discard <| Edit.setPath doc name x

def build (part : Item) (scope : Scope) : Edit String := do
  let doc ← start part
  let mappings ← Edit.read ((← get).field part "fieldMappings")
  (← Edit.of mappings.optionalParts).forM (fill scope doc)
  Edit.of ((← Edit.read doc).strictJson Json.spaced)

end StepGraph.Http.JsonPart

namespace StepGraph.Http

def plainText : Value → Except Fault String
  | .null => .ok ""
  | .bool b => .ok (if b then "true" else "false")
  | v => v.display

/-- A list stands for one field of the same name for each of its items. -/
def fields (es : Entries Value) : List (String × Value) :=
  es.flatMap fun e =>
    match e.2 with
    | .list xs => xs.map fun x => (e.1, x)
    | v => [(e.1, v)]

def plusEncoded (s : String) : String :=
  Text.replace (percentWith (fun c => isUnreserved c || c == ' ') s) " " "+"

def formLine (es : Entries Value) : Except Fault String := do
  let pairs ← (fields es).mapM fun e => do
    return plusEncoded e.1 ++ "=" ++ plusEncoded (← plainText e.2)
  return Text.join "&" pairs

def parameterChar (c : Char) : List Char :=
  if c == '"' then ['%', '2', '2']
  else if c == '\\' then ['\\', '\\']
  else if c.toNat < 0x20 && c.toNat != 0x1B then byteEscape (UInt8.ofNat c.toNat)
  else [c]

def parameter (name value : String) : String :=
  name ++ "=\"" ++ String.ofList (value.toList.flatMap parameterChar) ++ "\""

def typesByEnd : Entries String :=
  [(".pdf", "application/pdf"), (".json", "application/json"), (".xml", "text/xml"),
   (".csv", "text/csv"), (".txt", "text/plain"), (".html", "text/html"), (".png", "image/png"),
   (".jpg", "image/jpeg"), (".jpeg", "image/jpeg"), (".gif", "image/gif"),
   (".zip", "application/zip")]

def guessedType (filename : String) : String :=
  ((typesByEnd.find? fun e => Text.endsWith filename e.1).map Prod.snd).getD
    "application/octet-stream"

structure BodyPart where
  name : String
  filename : Option String := none
  contentType : Option String := none
  content : ByteArray

namespace BodyPart

def ofField (e : String × Value) : Except Fault BodyPart :=
  match e.2 with
  | .bytes b => .ok { name := e.1, content := b }
  | .list _ | .object _ | .moment _ => .error .wrongKind
  | v => do return { name := e.1, content := (← plainText v).toUTF8 }

def textOrNone : Value → Except Fault (Option String)
  | .text s => .ok (if s.isEmpty then none else some s)
  | v => if v.truthy then .error .wrongKind else .ok none

def ofFile (f : FormPart) : Except Fault BodyPart := do
  let filename ← textOrNone f.filename
  let name ←
    match f.name with
    | .text s => pure s
    | _ => throw .wrongKind
  let contentType ←
    match f.contentType with
    | .text t => pure (some t)
    | .null => pure (filename.map guessedType)
    | _ => throw .noSuchMember
  return ⟨name, filename, contentType, f.content⟩

def header (p : BodyPart) : String :=
  "Content-Disposition: form-data; " ++ parameter "name" p.name ++
    p.filename.elim "" (fun f => "; " ++ parameter "filename" f) ++
    p.contentType.elim "" (fun t => "\r\nContent-Type: " ++ t) ++ "\r\n\r\n"

def bytes (boundary : String) (p : BodyPart) : ByteArray :=
  ("--" ++ boundary ++ "\r\n" ++ p.header).toUTF8 ++ p.content ++ "\r\n".toUTF8

end BodyPart

def inParts (boundary : String) (ps : List BodyPart) : ByteArray :=
  (ps.map (BodyPart.bytes boundary)).foldr (· ++ ·) ("--" ++ boundary ++ "--\r\n").toUTF8

end StepGraph.Http
