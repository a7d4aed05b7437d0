import StepGraph.Records.Imaging
import StepGraph.Service.Delivery
import StepGraph.Value.Cast

/-!
Filing documents under bucket, type and detail line. `Filing.put` stores the bytes and then the
record; `Filing.get` gives the record that was filed last under a key.
-/
namespace StepGraph.Filing

def bucketFolder (id : Int) : String := "bucket-" ++ toString id

def documentUrl (b : Bucket) (path : String) : String := Text.stripRight '/' b.url ++ "/" ++ path

def bucket (id : Value) : Work Bucket := do
  match ← Work.of ((← Work.database).buckets.find (← Work.of id.whole)) with
  | some b => return b
  | none => throw (.external ("Bucket not found: " ++ (← Work.of id.display)))

def documentType (id : Value) : Work DocumentType := do
  match ← Work.of ((← Work.database).documentTypes.find (← Work.of id.whole)) with
  | some t => return t
  | none => throw (.external ("Document type not found: " ++ (← Work.of id.display)))

def record (make : Int → Time.Moment → FiledDocument) : Work FiledDocument := do
  let db ← Work.database
  let _ ← Work.of db.documents.all
  let now ← Work.moment
  let (t, d) := db.documents.insert fun id => make id now
  Work.setDatabase { db with documents := t }
  return d

def millis : Work String := do return toString ((← get).now * 1000)

def defaultPath (t : DocumentType) (detailLine : String) : Work String := do
  return t.name ++ "/" ++ detailLine ++ "_" ++ (← millis) ++ ".pdf"

structure Submission where
  detailLine : String
  billNumber : String
  data : ByteArray
  filename : Value
  path : Option String := none

def nameText (v : Value) : Except Fault String :=
  match v.orElse (.text "") with
  | .text s => .ok s
  | _ => .error (.misuse .unsupportedLeaf)

def put (bucketId typeId : Value) (s : Submission) : Work (Entries Value) := do
  let b ← bucket bucketId
  let t ← documentType typeId
  let path ←
    match s.path.filter (!·.isEmpty) with
    | some p => pure p
    | none => defaultPath t s.detailLine
  discard <| Storage.write (bucketFolder b.id) path s.data
  let name ← Work.of (nameText s.filename)
  let d ← record fun id now =>
    { id := id, bucket := b.id, type := t.id, detailLine := s.detailLine,
      billNumber := some s.billNumber, storagePath := path, arrivalName := some name,
      size := some s.data.size, createdAt := now }
  return [("documentId", .int d.id), ("storagePath", .text path),
    ("documentUrl", .text (documentUrl b path)), ("bucketName", .text b.name),
    ("documentTypeName", .text t.name), ("detailLineId", .text s.detailLine),
    ("billNumber", .text s.billNumber)]

def isUnder (bucketId typeId : Int) (detailLine : String) (d : FiledDocument) : Bool :=
  d.bucket == bucketId && d.type == typeId && d.detailLine == detailLine

/-- Filed earlier, or at the same time with a smaller id. -/
def before (a b : FiledDocument) : Bool :=
  a.createdAt.ticks < b.createdAt.ticks || (a.createdAt.ticks == b.createdAt.ticks && a.id ≤ b.id)

def latest : List FiledDocument → Option FiledDocument
  | [] => none
  | d :: rest =>
    match latest rest with
    | none => some d
    | some e => if before d e then some e else some d

def get (bucketId typeId : Value) (detailLine : String) : Work (Entries Value) := do
  let b ← bucket bucketId
  let db ← Work.database
  let typeNumber ← Work.of (do held (← typeId.whole))
  let rows ← Work.of db.documents.all
  match latest (rows.filter (isUnder b.id typeNumber detailLine)) with
  | some d =>
    return [("documentId", .int d.id), ("storagePath", .text d.storagePath),
      ("documentUrl", .text (documentUrl b d.storagePath)), ("bucketName", .text b.name),
      ("detailLineId", .text d.detailLine), ("billNumber", .ofText? d.billNumber),
      ("originalFilename", .ofText? d.arrivalName)]
  | none => throw (.external "Document not found")

end StepGraph.Filing
