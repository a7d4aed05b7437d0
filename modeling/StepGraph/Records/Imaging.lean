import StepGraph.Records.Table
import StepGraph.Imaging.Barcode

/-! Records of document filing: buckets, document types, patterns, filed and waiting documents. -/
namespace StepGraph

open Time (Moment)

structure Bucket where
  id : Int
  name : String
  url : String := ""

structure DocumentType where
  id : Int
  name : String
  isActive : Bool := true

structure StoredPattern where
  id : Int
  pattern : Barcode.Pattern
  priority : Int := 0
  isActive : Bool := true

structure FiledDocument where
  id : Int
  bucket : Int
  type : Int
  detailLine : String
  billNumber : Option String := none
  storagePath : String
  arrivalName : Option String := none
  size : Option Int := none
  createdAt : Moment

structure WaitingDocument where
  id : Int
  bucket : Option Int := none
  storagePath : String
  arrivalName : Option String := none
  size : Option Int := none
  barcodes : List String := []
  source : String := "manual"
  status : String := "pending"
  reason : Option String := none

instance : Numbered Bucket := ⟨Bucket.id⟩
instance : Numbered DocumentType := ⟨DocumentType.id⟩
instance : Numbered StoredPattern := ⟨StoredPattern.id⟩
instance : Numbered FiledDocument := ⟨FiledDocument.id⟩
instance : Numbered WaitingDocument := ⟨WaitingDocument.id⟩

open Column

def Bucket.ofEntries (es : Entries Value) (id : Int) : Bucket where
  id := id
  name := text es "name"
  url := text es "url"

def DocumentType.ofEntries (es : Entries Value) (id : Int) : DocumentType where
  id := id
  name := text es "name"
  isActive := flag es "is_active" true

def StoredPattern.ofEntries (es : Entries Value) (id : Int) : StoredPattern where
  id := id
  pattern :=
    { id := some id
      template := text? es "pattern_template"
      separator := some (text es "separator" "-")
      fixedType := text? es "fixed_document_type"
      bucket := int? es "bucket_id" }
  priority := int es "priority"
  isActive := flag es "is_active" true

def FiledDocument.ofEntries (es : Entries Value) (id : Int) (createdAt : Moment) :
    FiledDocument where
  id := id
  bucket := int es "bucket_id"
  type := int es "document_type_id"
  detailLine := text es "detail_line_id"
  billNumber := text? es "bill_number"
  storagePath := text es "storage_path"
  arrivalName := text? es "original_filename"
  size := int? es "file_size"
  createdAt := createdAt

def WaitingDocument.ofEntries (es : Entries Value) (id : Int) : WaitingDocument where
  id := id
  bucket := int? es "bucket_id"
  storagePath := text es "storage_path"
  arrivalName := text? es "original_filename"
  size := int? es "file_size"
  barcodes :=
    match document es "detected_barcodes" with
    | .list xs => xs.filterMap Value.text?
    | _ => []
  source := text es "source_type" "manual"
  status := text es "status" "pending"
  reason := text? es "failure_reason"

def FiledDocument.entries (r : FiledDocument) : Entries Value :=
  [("id", .int r.id), ("bucket_id", .int r.bucket), ("document_type_id", .int r.type),
    ("detail_line_id", .text r.detailLine), ("bill_number", .ofText? r.billNumber),
    ("storage_path", .text r.storagePath), ("original_filename", .ofText? r.arrivalName),
    ("file_size", ofInt? r.size)]

def WaitingDocument.entries (r : WaitingDocument) : Entries Value :=
  [("id", .int r.id), ("bucket_id", ofInt? r.bucket), ("storage_path", .text r.storagePath),
    ("original_filename", .ofText? r.arrivalName), ("file_size", ofInt? r.size),
    ("detected_barcodes", .texts r.barcodes), ("source_type", .text r.source),
    ("status", .text r.status), ("failure_reason", .ofText? r.reason)]

end StepGraph
