import StepGraph.Json.Marked
import StepGraph.Json.Writer
import StepGraph.Records.Database

/-!
Records that go, and what happened to the records that report on runs and filings: the rows of their
tables, and those among them that are new or changed since an earlier state.
-/
namespace StepGraph.Database

/-- Removes the record with an id. The steps of a run go with it, and so does the graph of a
workflow. -/
def erase (db : Database) (table : String) (id : Value) : Database :=
  match table, id with
  | "workflow_nodes", .text s =>
    { db with nodes := db.nodes.keep fun r => r.id != s }
  | "execution_logs", .int i =>
    { db with
      executionLogs := db.executionLogs.erase i
      stepLogs := db.stepLogs.keep fun r => r.run != i }
  | "step_logs", .int i => { db with stepLogs := db.stepLogs.erase i }
  | "extraction_logs", .int i => { db with extractionLogs := db.extractionLogs.erase i }
  | "extraction_types", .int i => { db with extractionTypes := db.extractionTypes.erase i }
  | "transformation_types", .int i =>
    { db with transformationTypes := db.transformationTypes.erase i }
  | "extraction_group_data", .int i => { db with groups := db.groups.erase i }
  | "field_mapping_functions", .int i => { db with functions := db.functions.erase i }
  | "api_settings", .int i => { db with mainApis := db.mainApis.erase i }
  | "secondary_api_configs", .int i => { db with secondaryApis := db.secondaryApis.erase i }
  | "sftp_configs", .int i => { db with sftp := db.sftp.erase i }
  | "email_configs", .int i => { db with mail := db.mail.erase i }
  | "imaging_buckets", .int i => { db with buckets := db.buckets.erase i }
  | "imaging_document_types", .int i => { db with documentTypes := db.documentTypes.erase i }
  | "imaging_barcode_patterns", .int i => { db with patterns := db.patterns.erase i }
  | "imaging_documents", .int i => { db with documents := db.documents.erase i }
  | "imaging_unindexed_queue", .int i => { db with waiting := db.waiting.erase i }
  | "workflows", .int i =>
    { db with
      workflows := db.workflows.erase i
      nodes := db.nodes.keep fun r => r.workflow != i
      edges := db.edges.keep fun r => r.workflow != i }
  | "workflow_edges", .int i => { db with edges := db.edges.erase i }
  | _, _ => db

/-- Removes a whole table; from then on every question to it is a fault. -/
def drop (db : Database) (table : String) : Database :=
  match table with
  | "execution_logs" => { db with executionLogs := db.executionLogs.drop }
  | "step_logs" => { db with stepLogs := db.stepLogs.drop }
  | "extraction_logs" => { db with extractionLogs := db.extractionLogs.drop }
  | "extraction_types" => { db with extractionTypes := db.extractionTypes.drop }
  | "transformation_types" => { db with transformationTypes := db.transformationTypes.drop }
  | "extraction_group_data" => { db with groups := db.groups.drop }
  | "field_mapping_functions" => { db with functions := db.functions.drop }
  | "api_settings" => { db with mainApis := db.mainApis.drop }
  | "secondary_api_configs" => { db with secondaryApis := db.secondaryApis.drop }
  | "sftp_configs" => { db with sftp := db.sftp.drop }
  | "email_configs" => { db with mail := db.mail.drop }
  | "imaging_buckets" => { db with buckets := db.buckets.drop }
  | "imaging_document_types" => { db with documentTypes := db.documentTypes.drop }
  | "imaging_barcode_patterns" => { db with patterns := db.patterns.drop }
  | "imaging_documents" => { db with documents := db.documents.drop }
  | "imaging_unindexed_queue" => { db with waiting := db.waiting.drop }
  | "workflows" => { db with workflows := db.workflows.drop }
  | "workflow_nodes" => { db with nodes := db.nodes.drop }
  | "workflow_edges" => { db with edges := db.edges.drop }
  | _ => db

def withCompletion (es : Entries Value) (t : Option Time.Moment) : Entries Value :=
  es ++ [("completed", .bool t.isSome)]

def reported (db : Database) : List (String × List (Entries Value)) :=
  [("execution_logs", db.executionLogs.sorted.map fun r => withCompletion r.entries r.completedAt),
    ("extraction_logs", db.extractionLogs.sorted.map ExtractionLog.entries),
    ("step_logs", db.stepLogs.sorted.map fun r => withCompletion r.entries r.completedAt),
    ("imaging_documents", db.documents.sorted.map FiledDocument.entries),
    ("imaging_unindexed_queue", db.waiting.sorted.map WaitingDocument.entries)]

def rowText (es : Entries Value) : String :=
  Json.render Json.compact 0 (Marked.encode (.object es))

def changes (before after : Database) : Entries Value :=
  let old := before.reported
  after.reported.filterMap fun (table, rows) =>
    let known := ((old.lookup table).getD []).map rowText
    let fresh := rows.filter fun r => !known.contains (rowText r)
    if fresh.isEmpty then none else some (table, .list (fresh.map .object))

end StepGraph.Database
