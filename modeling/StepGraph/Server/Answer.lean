import StepGraph.Imaging.Indexing
import StepGraph.Run.Request
import StepGraph.Server.Exchange
import StepGraph.Server.Listing
import StepGraph.Text.Search

/-!
The addresses that a server answers, each for one method, and its answers. Runs and filings are
started by requests; everything else is read from the records. A fault that no rule turns into an
answer is answered as an internal one.
-/
namespace StepGraph.Server

inductive Route where
  | root
  | health
  | workflows
  | workflow (id : String)
  | run (mode : Mode) (id : String)
  | queue (id : String)
  | task (id : String)
  | execution (id : String)
  | steps (id : String)
  | indexing
  deriving DecidableEq, Repr

namespace Route

def ofPieces? : List String → Option Route
  | ["", ""] => some root
  | ["", "health"] => some health
  | ["", "workflows"] => some workflows
  | ["", "workflows", id] => some (workflow id)
  | ["", "workflows", id, "run"] => some (run .extraction id)
  | ["", "workflows", id, "transform"] => some (run .transformation id)
  | ["", "workflows", id, "queue"] => some (queue id)
  | ["", "tasks", id] => some (task id)
  | ["", "executions", id] => some (execution id)
  | ["", "executions", id, "steps"] => some (steps id)
  | ["", "imaging", "index"] => some indexing
  | _ => none

def id? : Route → Option String
  | workflow id | run _ id | queue id | task id | execution id | steps id => some id
  | _ => none

def ofPath? (path : String) : Option Route :=
  (ofPieces? (Text.split path "/")).filter fun r => r.id? != some ""

def toggleSlash (path : String) : String :=
  if Text.endsWith path "/" then Text.stripRight '/' path else path ++ "/"

/-- A path that leads nowhere may lead somewhere with or without a slash at its end. -/
def find? (path : String) : Option Route := (ofPath? path).or (ofPath? (toggleSlash path))

def isGet : Route → Bool
  | run _ _ | queue _ | indexing => false
  | _ => true

def method (r : Route) : String := if r.isGet then "GET" else "POST"

end Route

end StepGraph.Server

namespace StepGraph.Server

def applicationName : String := "Portalflow API"

def version : String := "0.1.0"

def rootDocument : Value :=
  .object [("name", .text applicationName), ("version", .text version),
    ("status", .text "healthy"), ("docs", .text "/docs"), ("redoc", .text "/redoc")]

def healthDocument : Value :=
  .object [("status", .text "healthy"), ("service", .text applicationName),
    ("version", .text version)]

def missing (what : String) (id : Int) : Response :=
  .error 404 (what ++ " " ++ toString id ++ " not found")

def checked {α : Type} (c : Checked α) (f : α → Work Response) : Work Response :=
  match c with
  | .ok x => f x
  | .problems ps => return .refused ps

def found {ρ : Type} [Numbered ρ] (what : String) (t : Table ρ) (id : Int)
    (f : ρ → Work Response) : Work Response := do
  match ← Work.of (t.find id) with
  | some r => f r
  | none => return missing what id

def reply (v : Value) : Work Response := Work.of (Response.document v)

/-- Counts below zero mean nothing to skip, or no limit. -/
def page {α : Type} (skip limit : Int) (xs : List α) : List α :=
  let rest := xs.drop skip.toNat
  if limit < 0 then rest else rest.take limit.toNat

def listWorkflows (skip limit : Int) : Work Response := do
  let t := (← Work.database).workflows
  let _ ← Work.of t.all
  Work.of (heldAll [some skip, some limit])
  let shown := (page skip limit t.sorted).map fun w => .object (summary w)
  reply (.object [("workflows", .list shown), ("total", .ofNat t.rows.length)])

def showWorkflow (id : Int) : Work Response := do
  let db ← Work.database
  found "Workflow" db.workflows id fun w => do reply (← Work.of (workflow db w))

def failedRun : Fault → Option Value
  | .run message executionLog extractionLog node _ _ =>
    some (.object [("error", .text "Workflow execution failed"), ("details", .text message),
      ("executionLogId", Column.ofInt? executionLog),
      ("extractionLogId", Column.ofInt? extractionLog), ("nodeId", .ofText? node)])
  | _ => none

/-- Runs a workflow; the path names it, whatever the request says. -/
def runWorkflow (mode : Mode) (id : Int) (r : Request) : Work Response := do
  found "Workflow" (← Work.database).workflows id fun _ => do
    match ← Work.attempt (Launch.run mode { r with workflow := some id }) with
    | .ok report => reply (.object (← Work.of (report.entries (← Work.store))))
    | .error f =>
      match failedRun f with
      | some v => Work.of (Response.document v 500)
      | none => throw f

def unknownMode (mode : String) : Response :=
  .error 400 ("Unknown run mode '" ++ mode ++ "'. Valid modes: " ++ Mode.known)

def queuedMessage (task : String) : String :=
  "Workflow queued for execution. Use GET /tasks/" ++ task ++ " to check status."

/-- Puts a run into the queue; the request keeps the workflow that it names itself. -/
def queueWorkflow (queue : Queue) (id : Int) (modeName : String) (r : Request) :
    Work Response := do
  match Mode.ofName? modeName with
  | none => return unknownMode modeName
  | some mode =>
    found "Workflow" (← Work.database).workflows id fun _ => do
      let answer : Value := .object [("task_id", .text queue.nextTask),
        ("status", .text "queued"), ("workflow_id", .int id), ("mode", .text mode.name),
        ("message", .text (queuedMessage queue.nextTask))]
      return { ← Work.of (Response.document answer 202) with
        queued := some (QueuedRun.ofRequest id mode r) }

def showExecution (id : Int) : Work Response := do
  found "Execution" (← Work.database).executionLogs id fun r => do
    reply (← Work.of (execution r))

def showSteps (id : Int) : Work Response := do
  let db ← Work.database
  found "Execution" db.executionLogs id fun _ => do
    let _ ← Work.of db.stepLogs.all
    let steps := (db.stepLogs.sorted.filter fun s => s.run == id).map step
    reply (.object [("execution_log_id", .int id), ("steps", .list steps),
      ("total", .ofNat steps.length)])

def arrival (es : Entries Value) : Checked Indexing.Arrival :=
  (fun pdf filename bucket source => ⟨pdf, filename, bucket, source⟩) <$>
    es.requiredIn ["pdfBase64", "pdf_base64"] Rule.filledText <*>
    es.optional ["originalFilename", "original_filename"] Rule.text <*>
    es.requiredIn ["bucketId", "bucket_id"] Rule.whole <*>
    es.withDefault ["sourceType", "source_type"] "upload" Rule.text

def indexDocument (a : Indexing.Arrival) : Work Response := do
  match ← Work.attempt (Indexing.index FieldFunction.defaultAttempts a) with
  | .ok report => reply (.object report.entries)
  | .error f =>
    match f with
    | .step ⟨.configuration, message, _⟩ => return .error 400 message
    | f => if f.isExternal then return .error 502 f.message else throw f

def withBody {α β : Type} (q : Incoming) (read : Entries Value → Checked α) (parts : Checked β)
    (f : β → α → Work Response) : Work Response :=
  match q.withFields read parts f with
  | .ok answer => answer
  | .error refusal => return refusal

def answerRoute (queue : Queue) (q : Incoming) : Route → Work Response
  | .root => reply rootDocument
  | .health => reply healthDocument
  | .workflows =>
    checked (Prod.mk <$> q.parameter "skip" 0 Rule.whole <*> q.parameter "limit" 100 Rule.whole)
      fun p => listWorkflows p.1 p.2
  | .workflow id => checked (Incoming.pathNumber "workflow_id" id) showWorkflow
  | .run mode id =>
    withBody q Request.ofEntries (Incoming.pathNumber "workflow_id" id) (runWorkflow mode)
  | .queue id =>
    withBody q Request.ofEntries (Prod.mk <$> Incoming.pathNumber "workflow_id" id <*>
      q.parameter "mode" Mode.extraction.name Rule.text) fun p r => queueWorkflow queue p.1 p.2 r
  | .task id => do reply (← Work.of (queue.report.document id))
  | .execution id => checked (Incoming.pathNumber "execution_id" id) showExecution
  | .steps id => checked (Incoming.pathNumber "execution_id" id) showSteps
  | .indexing => withBody q arrival (.ok ()) fun _ a => indexDocument a

def answer (queue : Queue) (q : Incoming) : Work Response :=
  match Route.find? q.path with
  | none => return .detail 404 "Not Found"
  | some r =>
    if q.method == r.method then answerRoute queue q r
    else return .detail 405 "Method Not Allowed"

def internal : Response := ⟨500, .text "Internal Server Error", none⟩

structure Reply where
  response : Response
  requestId : Option String

def serve (queue : Queue) (q : Incoming) : Work Reply := do
  match ← Work.attempt (answer queue q) with
  | .ok r => return ⟨r, q.header? "X-Request-ID"⟩
  | .error _ => return ⟨internal, none⟩

end StepGraph.Server
