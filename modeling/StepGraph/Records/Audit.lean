import StepGraph.Records.Table

/-! Records of what ran: one per run, one per processed document, one per visit or phase. -/
namespace StepGraph

open Time (Moment)

structure ExecutionLog where
  id : Int
  workflow : Option Int := none
  extractionLog : Option Int := none
  status : String := "running"
  mode : Option String := none
  node : Option String := none
  nodeLabel : Option String := none
  context : Value := .null
  error : Option String := none
  user : Option String := none
  extractionType : Option Int := none
  transformationType : Option Int := none
  startedAt : Moment
  completedAt : Option Moment := none
  updatedAt : Moment

structure StepLog where
  id : Int
  run : Int
  workflow : Option Int := none
  node : String
  label : Option String := none
  type : Option String := none
  status : String
  startedAt : Option Moment := none
  completedAt : Option Moment := none
  duration : Option Int := none
  error : Option String := none
  input : Value := .null
  output : Value := .null
  config : Value := .null
  summary : Option String := none

structure ExtractionLog where
  id : Int
  user : Option String := none
  extractionType : Option Int := none
  transformationType : Option Int := none
  pdfFilename : Option String := none
  pdfPages : Option Int := none
  status : String := "processing"
  extracted : Option String := none
  mode : Option String := none
  session : Option String := none
  groupOrder : Option Int := none

instance : Numbered ExecutionLog := ⟨ExecutionLog.id⟩
instance : Numbered StepLog := ⟨StepLog.id⟩
instance : Numbered ExtractionLog := ⟨ExtractionLog.id⟩

open Column

def ExecutionLog.ofEntries (es : Entries Value) (id : Int) (now : Moment) : ExecutionLog where
  id := id
  workflow := int? es "workflow_id"
  extractionLog := int? es "extraction_log_id"
  status := text es "status" "running"
  mode := text? es "processing_mode"
  node := text? es "current_node_id"
  nodeLabel := text? es "current_node_label"
  context := document es "context_data"
  error := text? es "error_message"
  user := text? es "user_id"
  extractionType := int? es "extraction_type_id"
  transformationType := int? es "transformation_type_id"
  startedAt := now
  updatedAt := now

def ExecutionLog.entries (r : ExecutionLog) : Entries Value :=
  [("id", .int r.id), ("workflow_id", ofInt? r.workflow),
    ("extraction_log_id", ofInt? r.extractionLog), ("status", .text r.status),
    ("processing_mode", .ofText? r.mode), ("current_node_id", .ofText? r.node),
    ("current_node_label", .ofText? r.nodeLabel), ("context_data", r.context),
    ("error_message", .ofText? r.error), ("user_id", .ofText? r.user),
    ("extraction_type_id", ofInt? r.extractionType),
    ("transformation_type_id", ofInt? r.transformationType)]

def StepLog.ofEntries (es : Entries Value) (id : Int) : StepLog where
  id := id
  run := int es "execution_log_id"
  workflow := int? es "workflow_id"
  node := text es "node_id"
  label := text? es "node_label"
  type := text? es "step_type"
  status := text es "status"
  duration := int? es "duration_ms"
  error := text? es "error_message"
  input := document es "input_data"
  output := document es "output_data"
  config := document es "config_json"
  summary := text? es "user_response"

def StepLog.entries (r : StepLog) : Entries Value :=
  [("id", .int r.id), ("execution_log_id", .int r.run), ("workflow_id", ofInt? r.workflow),
    ("node_id", .text r.node), ("node_label", .ofText? r.label), ("step_type", .ofText? r.type),
    ("status", .text r.status), ("error_message", .ofText? r.error), ("input_data", r.input),
    ("output_data", r.output), ("config_json", r.config), ("user_response", .ofText? r.summary)]

def ExtractionLog.ofEntries (es : Entries Value) (id : Int) : ExtractionLog where
  id := id
  user := text? es "user_id"
  extractionType := int? es "extraction_type_id"
  transformationType := int? es "transformation_type_id"
  pdfFilename := text? es "pdf_filename"
  pdfPages := int? es "pdf_pages"
  status := text es "extraction_status" "processing"
  extracted := text? es "extracted_data"
  mode := text? es "processing_mode"
  session := text? es "session_id"
  groupOrder := int? es "group_order"

def ExtractionLog.entries (r : ExtractionLog) : Entries Value :=
  [("id", .int r.id), ("user_id", .ofText? r.user),
    ("extraction_type_id", ofInt? r.extractionType),
    ("transformation_type_id", ofInt? r.transformationType),
    ("pdf_filename", .ofText? r.pdfFilename), ("pdf_pages", ofInt? r.pdfPages),
    ("extraction_status", .text r.status), ("extracted_data", .ofText? r.extracted),
    ("processing_mode", .ofText? r.mode), ("session_id", .ofText? r.session),
    ("group_order", ofInt? r.groupOrder)]

end StepGraph
