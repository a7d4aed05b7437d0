import StepGraph.Graph.Route
import StepGraph.Run.Seed
import StepGraph.Run.Visit
import StepGraph.Service.Delivery
import StepGraph.World

/-!
Running a workflow for one request: the document's record and the run's record are opened, the
payload is loaded and enriched, the graph is read from its records and walked, and the run's record
is closed. A run either returns its report or fails with a fault that names both records.
-/
namespace StepGraph.Graph

def createdFirst (a b : StoredNode) : Bool := a.createdAt.ticks ≤ b.createdAt.ticks

def stored (workflow : Int) : Work (Graph Value) := do
  let db ← Work.database
  let nodes ← Work.of db.nodes.all
  let id ← Work.of (held workflow)
  let _ ← Work.of db.edges.all
  let nodes := (nodes.filter fun n => n.workflow == id).mergeSort createdFirst
  let edges := db.edges.sorted.filter fun e => e.workflow == id
  Work.of (read (nodes.map StoredNode.fields) (edges.map StoredEdge.fields))

end StepGraph.Graph

namespace StepGraph

structure Report where
  context : Item
  last : Item
  executionLog : Option Int
  extractionLog : Option Int
  /-- The name under which the run filed its document. -/
  filename : Option String

namespace Launch

def visitLimit : Int := 100

def payloadBucket : String := "pdfs"

def findKind (r : Request) : Work (Option DocumentKind) := do
  match r.extractionType.filter (· != 0), r.transformationType.filter (· != 0) with
  | some id, _ => Work.of ((← Work.database).extractionTypes.find id)
  | none, some id => Work.of ((← Work.database).transformationTypes.find id)
  | none, none => return none

def defaultFormat (mode : Mode) (r : Request) : String :=
  match mode with
  | .extraction => "JSON"
  | .transformation => (Seed.given r.format).getD "JSON"

def formatOf (mode : Mode) (r : Request) (kind : Option DocumentKind) : String :=
  Text.upper ((Seed.given (kind.map DocumentKind.format)).getD (defaultFormat mode r))

def keptText (v : Value) : Except Fault (Option String) :=
  match v with
  | .null => .ok none
  | .text s => .ok (some s)
  | v => some <$> v.json Json.spaced

def newDocument (mode : Mode) (r : Request) (text : Option String) : Work Int := do
  let db ← Work.database
  let _ ← Work.of db.extractionLogs.all
  Work.of (heldAll [r.extractionType, r.transformationType, r.pages, r.groupOrder])
  let (t, row) := db.extractionLogs.insert fun id =>
    { id := id, user := r.user, extractionType := r.extractionType,
      transformationType := r.transformationType, pdfFilename := r.givenFilename,
      pdfPages := r.pages, status := "success", extracted := text, mode := some mode.name,
      session := r.session, groupOrder := r.groupOrder }
  Work.setDatabase { db with extractionLogs := t }
  return row.id

def openDocument (mode : Mode) (r : Request) : Work (Option Int) := do
  let text ← Work.of (keptText r.extracted)
  Work.logWrite (newDocument mode r text)

/-- Faults of stored data that leave the payload empty. -/
def leavesEmpty : Fault → Bool
  | .malformed (.complaint _ _ _ _) => true
  | .misuse m => m == .undecodable
  | f => f.isWorkflowTrouble

def storedDocument (path : String) : Work Value := do
  let text ← Storage.readText payloadBucket path
  if Text.isBlankText text then return .object []
  match Json.parse text with
  | .ok v => return v
  | .error f => throw (.malformed f)

/-- The run's data: a stored document, or what the request carries. Submitted containers are used
as they are. -/
def loadPayload (r : Request) (submitted : Item) (format : String) : Work Item := do
  match Seed.given r.extractedPath with
  | some path =>
    match ← Work.attempt (storedDocument path) with
    | .ok v => Work.plant v
    | .error f => if leavesEmpty f then Work.newObject [] else throw f
  | none =>
    if (← Work.store).isContainer submitted then return submitted
    else Work.plant (← Work.of (Payload.inline r.extracted format))

structure Ready where
  graph : Graph Item
  context : Item

def prepare (mode : Mode) (workflow : Int) (r : Request) (kind : Option DocumentKind)
    (format : String) : Work Ready := do
  let submitted ← Work.plant r.extracted
  let payload ← loadPayload r submitted format
  if mode == .extraction then Enrich.payload kind format payload
  let graph ← Graph.stored workflow
  discard <| Work.of graph.start
  let seed ← Seed.build ⟨mode, r, submitted, payload, format, kind⟩ true
  let context ← Work.edit (Edit.run' fun s => Context.create s seed)
  let graph ← Work.edit (Edit.run' fun s => graph.plant s)
  return ⟨graph, context⟩

def traverse (graph : Graph Item) (run : Run) : Work (Walked × Run) :=
  ExceptT.mk fun w =>
    let r := (graph.walk Visit.step visitLimit).run ⟨w, run⟩
    (.ok (r.1, r.2.run), r.2.world)

/-- Closes the run's record as failed; a fault that already reports a run is passed on. -/
def fail (recorder : Recorder) (context : Option Item) (f : Fault) : Work Fault := do
  match f with
  | .run _ _ _ _ _ _ => return f
  | f =>
    recorder.fail f.message (← Work.forLog (context.mapM Work.read))
    return .run f.message recorder.log recorder.extractionLog none none (some f)

/-- A report names every entry of the context by text. -/
def oddName (name : Value) : FieldProblem :=
  ⟨["final_context_data", name.shown, "[key]"], "string_type"⟩

def checkNames (run : Run) (odd : List (Item × Value)) : Checked Unit :=
  match odd.filter (·.1 == run.context) with
  | [] => .ok ()
  | own => .problems (own.map fun e => oddName e.2).eraseDups

def filedItem (s : Store) (context : Item) : Item :=
  s.view.orElse (Context.get s context "actualFilename") (Context.get s context "renamedFilename")

/-- The filed name of a run whose context can be reported; it has to be text. -/
def filedName (run : Run) (context : Item) : Work (Option String) := do
  let names := checkNames run (← get).oddNames
  let name ← Work.read (filedItem (← Work.store) context)
  let filed := Entries.check Rule.text.optional "actual_filename" name
  Work.of (((fun _ filed => filed) <$> names <*> filed).toExcept "WorkflowRunResult")

def finish (recorder : Recorder) (run : Run) : Work Report := do
  let context ← Work.edit (Edit.run' fun s => Context.copy s run.context)
  recorder.complete (← Work.forLog (Work.read context))
  return ⟨context, run.last, recorder.log, recorder.extractionLog, ← filedName run context⟩

def unnamed : Fault := .run "workflowId is required" none none none none none

def proceed (recorder : Recorder) (workflow : Int) (format : String)
    (ready : Except Fault Ready) : Work Report := do
  match ready with
  | .error f => throw (← fail recorder none f)
  | .ok r =>
    let start : Run :=
      { context := r.context, format := format, workflow := some workflow,
        recorder := some recorder }
    let (walked, run) ← traverse r.graph start
    match walked.outcome with
    | .error f => throw (← fail recorder (some r.context) f)
    | .ok () => finish recorder run

def run (mode : Mode) (r : Request) : Work Report := do
  match r.workflow with
  | none => throw unnamed
  | some workflow =>
    let kind := (← Work.bestEffort (findKind r)).join
    let format := formatOf mode r kind
    let document ← openDocument mode r
    let recorder ← Recorder.start
      { workflow := some workflow, mode := mode.name, user := r.user, extractionLog := document,
        extractionType := r.extractionType, transformationType := r.transformationType }
      (.object [])
    proceed recorder workflow format (← Work.attempt (prepare mode workflow r kind format))

end Launch

def Report.entries (r : Report) (s : Store) : Except Fault (Entries Value) := do
  return [("success", .bool true), ("finalContextData", ← s.read r.context),
    ("lastApiResponse", ← s.read r.last), ("executionLogId", Column.ofInt? r.executionLog),
    ("extractionLogId", Column.ofInt? r.extractionLog), ("actualFilename", .ofText? r.filename)]

end StepGraph
