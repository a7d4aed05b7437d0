import StepGraph.Fields
import StepGraph.Scope

/-!
The elements of a workflow graph: start markers, configured steps and the edges between them. A
step's configuration is a document that only its own kind understands; a graph that was read holds
trees, a graph that is walked holds shared containers.
-/
namespace StepGraph

inductive StepKind where
  | apiCall
  | apiEndpoint
  | conditionalCheck
  | renameFile
  | sftpUpload
  | emailAction
  | multipartUpload
  | aiDecision
  | imaging
  | readEmail
  deriving DecidableEq, Repr

namespace StepKind

def names : List (String × StepKind) :=
  [("api_call", apiCall), ("api_endpoint", apiEndpoint), ("conditional_check", conditionalCheck),
   ("rename_file", renameFile), ("sftp_upload", sftpUpload), ("email_action", emailAction),
   ("multipart_form_upload", multipartUpload), ("ai_decision", aiDecision), ("imaging", imaging),
   ("read_email", readEmail)]

def name : StepKind → String
  | apiCall => "api_call"
  | apiEndpoint => "api_endpoint"
  | conditionalCheck => "conditional_check"
  | renameFile => "rename_file"
  | sftpUpload => "sftp_upload"
  | emailAction => "email_action"
  | multipartUpload => "multipart_form_upload"
  | aiDecision => "ai_decision"
  | imaging => "imaging"
  | readEmail => "read_email"

def ofName? (s : String) : Option StepKind :=
  if s == "rename_pdf" then some renameFile else names.lookup s

end StepKind

def defaultHandle : String := "default"

structure Step (κ : Type) where
  id : String
  workflow : Option Int := none
  type : String
  label : String := ""
  config : κ
  escapeQuotes : Bool := false
  summary : Option String := none

structure Start where
  id : String
  workflow : Option Int := none
  label : String := ""

inductive Node (κ : Type) where
  | start (s : Start)
  | step (s : Step κ)

structure Edge where
  id : String
  workflow : Option Int := none
  source : String
  target : String
  sourceHandle : String := defaultHandle
  targetHandle : Option String := none
  label : Option String := none
  animated : Bool := false
  deriving DecidableEq, Repr

namespace Step

def kind? {κ : Type} (s : Step κ) : Option StepKind := StepKind.ofName? s.type

def ofEntries (es : Entries Value) : Checked (Step Value) :=
  (fun id workflow type label config escape summary =>
      { id := id, workflow := workflow, type := type, label := label, config := .object config,
        escapeQuotes := escape, summary := summary }) <$>
    es.required "id" Rule.visibleText <*>
    es.optional ["workflow_id"] Rule.whole <*>
    es.required "step_type" Rule.filledText <*>
    es.withDefault ["label"] "" (Rule.text.orElse (.text "")) <*>
    es.withDefault ["config_json"] [] (Rule.object.orElse (.object [])) <*>
    es.withDefault ["escape_single_quotes_in_body"] false Rule.truth <*>
    es.optional ["user_response_template"] Rule.text

end Step

def Start.ofEntries (es : Entries Value) : Checked Start :=
  (fun id workflow label => { id := id, workflow := workflow, label := label }) <$>
    es.required "id" Rule.visibleText <*>
    es.optional ["workflow_id"] Rule.whole <*>
    es.withDefault ["label"] "" (Rule.text.orElse (.text ""))

def Edge.ofEntries (es : Entries Value) : Checked Edge :=
  (fun id workflow source target handle targetHandle label animated =>
      { id := id, workflow := workflow, source := source, target := target, sourceHandle := handle,
        targetHandle := targetHandle, label := label, animated := animated }) <$>
    es.required "id" Rule.filledText <*>
    es.optional ["workflow_id"] Rule.whole <*>
    es.required "source_node_id" Rule.filledText <*>
    es.required "target_node_id" Rule.filledText <*>
    es.withDefault ["source_handle"] defaultHandle (Rule.text.orElse (.text defaultHandle)) <*>
    es.optional ["target_handle"] Rule.text <*>
    es.optional ["label"] Rule.text <*>
    es.withDefault ["animated"] false Rule.truth

namespace Node

def id {κ : Type} : Node κ → String
  | start s => s.id
  | step s => s.id

def label {κ : Type} : Node κ → String
  | start s => s.label
  | step s => s.label

def kind? {κ : Type} : Node κ → Option StepKind
  | start _ => none
  | step s => s.kind?

def checked {α : Type} (what record : String) : Checked α → Except Fault α
  | .ok x => .ok x
  | .problems ps =>
    .error (.invalidFields
      ("Failed to create " ++ what ++ " node: " ++ (Fault.fields record ps).message) ps)

def unknownType (v : Value) : Except Fault (Node Value) := do
  throw (.invalid ("Unknown node type: '" ++ (← v.display) ++ "'. Valid types: ['start', 'step']"))

def ofEntries (es : Entries Value) : Except Fault (Node Value) :=
  match (Entries.get? es "node_type").getD .null with
  | .text "start" => start <$> checked "start" "StartNode" (Start.ofEntries es)
  | .text "step" => step <$> checked "step" "StepNode" (Step.ofEntries es)
  | .list _ => .error .wrongKind
  | .object _ => .error .wrongKind
  | v => unknownType v

def fields : Node Value → Value
  | start s =>
    .object [("id", .text s.id), ("workflow_id", (s.workflow.map Value.int).getD .null),
      ("node_type", .text "start"), ("label", .text s.label)]
  | step s =>
    .object [("id", .text s.id), ("workflow_id", (s.workflow.map Value.int).getD .null),
      ("node_type", .text "step"), ("label", .text s.label), ("step_type", .text s.type),
      ("config_json", s.config), ("escape_single_quotes_in_body", .bool s.escapeQuotes),
      ("user_response_template", .ofText? s.summary)]

def plant (s : Store) : Node Value → Store × Node Item
  | start a => (s, start a)
  | step a =>
    let r := s.plant a.config
    (r.1, step { a with config := r.2 })

end Node

def Edge.fields (e : Edge) : Value :=
  .object [("id", .text e.id), ("workflow_id", (e.workflow.map Value.int).getD .null),
    ("source_node_id", .text e.source), ("target_node_id", .text e.target),
    ("source_handle", .text e.sourceHandle), ("target_handle", .ofText? e.targetHandle),
    ("label", .ofText? e.label), ("animated", .bool e.animated)]

end StepGraph
