import StepGraph.Records.Table
import StepGraph.Records.Audit
import StepGraph.Records.Profile
import StepGraph.Records.Imaging
import StepGraph.Records.Workflow

/-! All tables together. -/
namespace StepGraph

/-! How documents are processed: types with their field mappings, the functions that mappings name,
and what earlier groups of a session gave. -/

structure DocumentKind where
  id : Int
  name : String
  format : String := "JSON"
  filenameTemplate : Option String := none
  fieldMappings : Value := .null

structure GroupData where
  id : Int
  session : String
  order : Int
  fields : Value := .null

structure StoredFunction where
  id : Int
  name : String
  logic : Value

instance : Numbered DocumentKind := ⟨DocumentKind.id⟩
instance : Numbered GroupData := ⟨GroupData.id⟩
instance : Numbered StoredFunction := ⟨StoredFunction.id⟩

open Column

def DocumentKind.ofEntries (es : Entries Value) (id : Int) : DocumentKind where
  id := id
  name := text es "name"
  format := text es "format_type" "JSON"
  filenameTemplate := text? es "filename_template"
  fieldMappings := document es "field_mappings"

def GroupData.ofEntries (es : Entries Value) (id : Int) : GroupData where
  id := id
  session := text es "session_id"
  order := int es "group_order"
  fields := document es "extracted_fields"

def StoredFunction.ofEntries (es : Entries Value) (id : Int) : StoredFunction where
  id := id
  name := text es "function_name"
  logic := document es "function_logic"

structure Database where
  executionLogs : Table ExecutionLog := {}
  stepLogs : Table StepLog := {}
  extractionLogs : Table ExtractionLog := {}
  extractionTypes : Table DocumentKind := {}
  transformationTypes : Table DocumentKind := {}
  groups : Table GroupData := {}
  functions : Table StoredFunction := {}
  mainApis : Table MainApi := {}
  secondaryApis : Table SecondaryApi := {}
  sftp : Table SftpSettings := {}
  mail : Table MailSettings := {}
  buckets : Table Bucket := {}
  documentTypes : Table DocumentType := {}
  patterns : Table StoredPattern := {}
  documents : Table FiledDocument := {}
  waiting : Table WaitingDocument := {}
  workflows : Table Workflow := {}
  nodes : Table StoredNode := {}
  edges : Table StoredEdge := {}

end StepGraph
