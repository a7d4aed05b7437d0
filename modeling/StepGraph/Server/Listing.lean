import StepGraph.Records.Database
import StepGraph.Value.Finite

/-! How records are shown. A stored document that has to be an object and is none cannot be
shown. -/
namespace StepGraph.Server

open Column

def objectOrNull (v : Value) : Except Fault Value :=
  match v with
  | .object _ => .ok v.finite
  | .null => .ok .null
  | _ => .error (.misuse (.other "ResponseValidationError"))

def floatOrNull : Option Float → Value
  | some x => .float x
  | none => .null

def summary (w : Workflow) : Entries Value :=
  [("id", .int w.id), ("name", .text w.name), ("description", .ofText? w.description),
    ("workflow_type", .text w.type), ("is_active", .bool w.isActive),
    ("created_at", .text w.createdAt.iso), ("updated_at", .text w.updatedAt.iso)]

def node (n : StoredNode) : Except Fault Value := do
  return .object [("id", .text n.id), ("node_type", .text n.nodeType),
    ("step_type", .ofText? n.stepType), ("label", .ofText? n.label),
    ("config_json", ← objectOrNull n.config), ("escape_single_quotes_in_body", .bool n.escapeQuotes),
    ("user_response_template", .ofText? n.summary), ("position_x", floatOrNull n.x),
    ("position_y", floatOrNull n.y)]

def edge (e : StoredEdge) : Value :=
  .object [("id", .text e.id), ("source_node_id", .text e.source),
    ("target_node_id", .text e.target), ("source_handle", .text e.sourceHandle),
    ("target_handle", .ofText? e.targetHandle), ("label", .ofText? e.label),
    ("animated", .bool e.animated)]

def workflow (db : Database) (w : Workflow) : Except Fault Value := do
  let nodes ← db.nodes.all
  let nodes ← (nodes.filter fun n => n.workflow == w.id).mapM node
  let _ ← db.edges.all
  let edges := (db.edges.sorted.filter fun e => e.workflow == w.id).map edge
  return .object (summary w ++ [("nodes", .list nodes), ("edges", .list edges)])

def execution (r : ExecutionLog) : Except Fault Value := do
  return .object [("id", .int r.id), ("workflow_id", ofInt? r.workflow),
    ("extraction_log_id", ofInt? r.extractionLog), ("status", .text r.status),
    ("processing_mode", .ofText? r.mode), ("current_node_id", .ofText? r.node),
    ("current_node_label", .ofText? r.nodeLabel), ("context_data", ← objectOrNull r.context),
    ("error_message", .ofText? r.error), ("user_id", .ofText? r.user),
    ("started_at", .text r.startedAt.iso), ("completed_at", ofMoment? r.completedAt),
    ("updated_at", .text r.updatedAt.iso)]

def step (r : StepLog) : Value :=
  .object [("id", .int r.id), ("execution_log_id", .int r.run), ("node_id", .text r.node),
    ("node_label", .ofText? r.label), ("step_type", .ofText? r.type), ("status", .text r.status),
    ("started_at", ofMoment? r.startedAt), ("completed_at", ofMoment? r.completedAt),
    ("duration_ms", ofInt? r.duration), ("error_message", .ofText? r.error),
    ("input_data", r.input.finite), ("output_data", r.output.finite),
    ("config_json", r.config.finite), ("user_response", .ofText? r.summary)]

end StepGraph.Server
