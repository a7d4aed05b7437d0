import StepGraph.Ai.Completion
import StepGraph.File.Payload
import StepGraph.Imaging.Filing
import StepGraph.Service.Collaborator

/-!
Filing a scanned document by the barcodes on it. The AI provider reads the barcodes; the first one
that a pattern matches decides where the document goes. A document that cannot be filed waits in a
queue with the reason. Either way its bytes are stored before its record is added.
-/
namespace StepGraph.Indexing

structure Arrival where
  /-- The document in base64. -/
  pdf : String
  filename : Option String := none
  bucket : Int
  source : String := "upload"

inductive Outcome where
  | filed (id : Int) (documentType detailLine : String)
  | waiting (reason : String)

structure Report where
  barcodes : List String
  storagePath : String
  outcome : Outcome

def scanPrompt : String :=
  "Analyze this PDF document and find ALL barcodes (1D and 2D including QR codes, Code 128, " ++
    "Code 39, etc.) visible on any page.\n\nFor each barcode found, return its decoded text " ++
    "value.\n\nReturn ONLY a JSON array of strings with the barcode values. If no barcodes are " ++
    "found, return an empty array [].\n\nExample response: [\"BOL-12345\", \"Invoice-67890\", " ++
    "\"POD-11111\"]\n\nReturn ONLY the JSON array, no other text."

def isProviderFault : Fault → Bool
  | .step ⟨.provider, _, _⟩ => true
  | _ => false

def scanOnce (pdf : String) : Work String :=
  Ai.complete [Ai.inlinePart pdf "application/pdf", Ai.textPart scanPrompt]

def scan (attempts : Int) (pdf : String) : Work (List String) := do
  discard Ai.provider
  let reply ← Attempt.retry isProviderFault (scanOnce pdf) (Attempt.further attempts)
  Work.of (Barcode.listed reply)

def activeTypes : Work (List DocumentType) := do
  let db ← Work.database
  let _ ← Work.of db.documentTypes.all
  return db.documentTypes.sorted.filter (·.isActive)

def patternFirst (a b : StoredPattern) : Bool :=
  a.priority < b.priority || (a.priority == b.priority && a.id ≤ b.id)

def activePatterns : Work (List StoredPattern) := do
  let rows ← Work.of (← Work.database).patterns.all
  return (rows.filter (·.isActive)).mergeSort patternFirst

/-- The match of the first barcode that any pattern matches, by its first matching pattern. -/
def firstMatch? (types : List String) (patterns : List StoredPattern) (barcodes : List String) :
    Option Barcode.Match :=
  barcodes.findSome? fun b => patterns.findSome? fun p => p.pattern.match? types b

/-- The type of a name; letter case does not matter, and of equal names the last one counts. -/
def typeNamed? (types : List DocumentType) (name : String) : Option DocumentType :=
  types.reverse.find? fun t => Text.lower t.name == Text.lower name

def bucketOr (chosen : Option Int) (default : Int) : Int :=
  match chosen with
  | some b => if b == 0 then default else b
  | none => default

def enqueue (make : Int → WaitingDocument) : Work Unit := do
  let db ← Work.database
  let _ ← Work.of db.waiting.all
  let (t, row) := db.waiting.insert make
  Work.of (heldAll [row.bucket])
  Work.setDatabase { db with waiting := t }

def store (bucket : Int) (path : String) (data : ByteArray) : Work Unit := do
  discard <| Storage.write (Filing.bucketFolder bucket) path data

def wait (a : Arrival) (name path : String) (data : ByteArray) (barcodes : List String)
    (reason : String) : Work Outcome := do
  store a.bucket path data
  enqueue fun id =>
    { id := id, bucket := some a.bucket, storagePath := path, arrivalName := some name,
      size := some data.size, barcodes := barcodes, source := a.source, reason := some reason }
  return .waiting reason

def file (bucket : Int) (t : DocumentType) (m : Barcode.Match) (name path : String)
    (data : ByteArray) : Work Outcome := do
  store bucket path data
  Work.of (heldAll [some bucket])
  let d ← Filing.record fun id now =>
    { id := id, bucket := bucket, type := t.id, detailLine := m.detailLine, billNumber := some "",
      storagePath := path, arrivalName := some name, size := some data.size, createdAt := now }
  return .filed d.id m.documentType m.detailLine

def unmatchedReason (barcodes : List String) : String :=
  if barcodes.isEmpty then "No barcodes detected in document"
  else "No barcode matched configured patterns"

def unknownTypeReason (name : String) : String :=
  "Document type \"" ++ name ++ "\" not found in configuration"

def index (attempts : Int) (a : Arrival) : Work Report := do
  let data ← Work.of (Payload.decoded a.pdf)
  let name := (a.filename.filter (!·.isEmpty)).getD "document.pdf"
  let path := "imaging/" ++ (← Filing.millis) ++ "-" ++ name
  let barcodes ← scan attempts a.pdf
  let types ← activeTypes
  let patterns ← activePatterns
  let outcome ←
    match firstMatch? (types.map (·.name)) patterns barcodes with
    | none => wait a name path data barcodes (unmatchedReason barcodes)
    | some m =>
      match typeNamed? types m.documentType with
      | none => wait a name path data barcodes (unknownTypeReason m.documentType)
      | some t => file (bucketOr m.bucket a.bucket) t m name path data
  return ⟨barcodes, path, outcome⟩

def Outcome.entries : Outcome → Entries Value
  | .filed id documentType detailLine =>
    [("indexed", .bool true), ("documentId", .int id), ("documentType", .text documentType),
      ("detailLineId", .text detailLine)]
  | .waiting reason => [("indexed", .bool false), ("reason", .text reason)]

def Report.entries (r : Report) : Entries Value :=
  [("success", .bool true), ("detectedBarcodes", .texts r.barcodes),
    ("storagePath", .text r.storagePath)] ++ r.outcome.entries

end StepGraph.Indexing
