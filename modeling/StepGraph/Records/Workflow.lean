import StepGraph.Records.Table
import StepGraph.Graph.Node

/-! Workflows as they are stored: nodes and edges are records of their own. -/
namespace StepGraph

open Time (Moment)

structure Workflow where
  id : Int
  name : String
  description : Option String := none
  type : String := "extraction"
  isActive : Bool := true
  createdAt : Moment
  updatedAt : Moment

structure StoredNode where
  id : String
  workflow : Int
  nodeType : String := "step"
  stepType : Option String := none
  label : Option String := none
  config : Value := .null
  escapeQuotes : Bool := false
  summary : Option String := none
  x : Option Float := none
  y : Option Float := none
  createdAt : Moment

structure StoredEdge where
  row : Int
  id : String
  workflow : Int
  source : String
  target : String
  sourceHandle : String := defaultHandle
  targetHandle : Option String := none
  label : Option String := none
  animated : Bool := false

instance : Numbered Workflow := ⟨Workflow.id⟩
instance : Numbered StoredEdge := ⟨StoredEdge.row⟩

open Column

def Workflow.ofEntries (es : Entries Value) (id : Int) (createdAt updatedAt : Moment) :
    Workflow where
  id := id
  name := text es "name"
  description := text? es "description"
  type := text es "workflow_type" "extraction"
  isActive := flag es "is_active" true
  createdAt := createdAt
  updatedAt := updatedAt

def StoredNode.ofEntries (es : Entries Value) (createdAt : Moment) : StoredNode where
  id := text es "id"
  workflow := int es "workflow_id"
  nodeType := text es "node_type" "step"
  stepType := text? es "step_type"
  label := text? es "label"
  config := document es "config_json"
  escapeQuotes := flag es "escape_single_quotes_in_body" false
  summary := text? es "user_response_template"
  x := number? es "position_x"
  y := number? es "position_y"
  createdAt := createdAt

def StoredEdge.ofEntries (es : Entries Value) (row : Int) : StoredEdge where
  row := row
  id := text es "id"
  workflow := int es "workflow_id"
  source := text es "source_node_id"
  target := text es "target_node_id"
  sourceHandle := text es "source_handle" defaultHandle
  targetHandle := text? es "target_handle"
  label := text? es "label"
  animated := flag es "animated" false

def StoredNode.fields (r : StoredNode) : Value :=
  .object [("id", .text r.id), ("workflow_id", .int r.workflow), ("node_type", .text r.nodeType),
    ("step_type", .ofText? r.stepType), ("label", .ofText? r.label), ("config_json", r.config),
    ("escape_single_quotes_in_body", .bool r.escapeQuotes),
    ("user_response_template", .ofText? r.summary)]

def StoredEdge.fields (r : StoredEdge) : Value :=
  .object [("id", .text r.id), ("workflow_id", .int r.workflow),
    ("source_node_id", .text r.source), ("target_node_id", .text r.target),
    ("source_handle", .text r.sourceHandle), ("target_handle", .ofText? r.targetHandle),
    ("label", .ofText? r.label), ("animated", .bool r.animated)]

end StepGraph
