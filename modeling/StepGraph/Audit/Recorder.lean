import StepGraph.Audit.BestEffort
import StepGraph.Text.Base64
import StepGraph.View

/-!
The audit trail of one run. A recorder keeps one record for the run and adds one for every visit or
phase. Without a record of the run, nothing more is written. Values are kept plain: bytes become
their letters and moments their written form, so what is kept is a document.
-/
namespace StepGraph

def Scalar.plain : Scalar → Scalar
  | .bytes b => .text (Text.Base64.encode b)
  | .moment t => .text t.iso
  | s => s

namespace Value

mutual

def plain : Value → Value
  | .scalar s => .scalar s.plain
  | .list xs => .list (plainItems xs)
  | .object es => .object (plainEntries es)

def plainItems : List Value → List Value
  | [] => []
  | x :: rest => plain x :: plainItems rest

def plainEntries : List (String × Value) → List (String × Value)
  | [] => []
  | (k, x) :: rest => (k, plain x) :: plainEntries rest

end

def kept (v : Value) : Except Fault Value :=
  match Json.fault? false v.plain with
  | some _ => .error (.misuse .unsupportedLeaf)
  | none => .ok v.plain

end Value

end StepGraph

namespace StepGraph

open Time (Moment)

structure Recorder where
  workflow : Option Int := none
  mode : String := "extraction"
  user : Option String := none
  extractionLog : Option Int := none
  extractionType : Option Int := none
  transformationType : Option Int := none
  /-- Number of the run's record. -/
  log : Option Int := none

structure LogEntry where
  label : String
  status : String
  startedAt : Option Moment := none
  completedAt : Option Moment := none
  duration : Option Int := some 0
  input : Item := .null
  output : Item := .null
  error : Option String := none
  summary : Option String := none

namespace Node

def typeName {κ : Type} : Node κ → String
  | start _ => "start"
  | step s => s.type

def config? : Node Item → Item
  | start _ => .null
  | step s => s.config

end Node

namespace Recorder

def record? (r : Recorder) : Option Int := r.log.filter (· != 0)

def newRecord (r : Recorder) (context : Value) : Work Int := do
  let db ← Work.database
  let _ ← Work.of db.executionLogs.all
  Work.of (heldAll [r.workflow, r.extractionLog, r.extractionType, r.transformationType])
  let context ← Work.of context.kept
  let now ← Work.moment
  let (t, row) := db.executionLogs.insert fun id =>
    { id := id, workflow := r.workflow, extractionLog := r.extractionLog, mode := some r.mode,
      context := context, user := r.user, extractionType := r.extractionType,
      transformationType := r.transformationType, startedAt := now, updatedAt := now }
  Work.setDatabase { db with executionLogs := t }
  return row.id

def start (r : Recorder) (context : Value) : Work Recorder := do
  return { r with log := ← Work.logWrite (r.newRecord context) }

def missingRecord (id : Int) : Fault := .invalid ("ExecutionLog " ++ toString id ++ " not found")

def changeRecord (id : Int) (context : Option Value) (f : ExecutionLog → ExecutionLog) :
    Work Unit := do
  let db ← Work.database
  match ← Work.of (db.executionLogs.find id) with
  | none => throw (missingRecord id)
  | some _ =>
    let context ← Work.of (context.mapM Value.kept)
    let now ← Work.moment
    let write (row : ExecutionLog) : ExecutionLog :=
      { f row with context := context.getD row.context, updatedAt := now }
    Work.setDatabase { db with executionLogs := db.executionLogs.update id write }

def change (r : Recorder) (context : Option Value) (f : Moment → ExecutionLog → ExecutionLog) :
    Work Unit := do
  match r.record? with
  | none => return
  | some id =>
    let now ← Work.moment
    discard <| Work.logWrite (changeRecord id context (f now))

def progress (r : Recorder) (node label : String) (context : Value) : Work Unit :=
  r.change (some context) fun _ row => { row with node := some node, nodeLabel := some label }

def complete (r : Recorder) (context : Value) : Work Unit :=
  r.change (some context) fun now row =>
    { row with status := "completed", completedAt := some now }

/-- Without a context the record keeps the one it has. -/
def fail (r : Recorder) (message : String) (context : Option Value) : Work Unit :=
  r.change context fun now row =>
    { row with status := "failed", error := some message, completedAt := some now }

def newStep (r : Recorder) (run : Int) (n : Node Item) (e : LogEntry) : Work Int := do
  let db ← Work.database
  let _ ← Work.of db.stepLogs.all
  Work.of (heldAll [some run, r.workflow, e.duration])
  let input ← Work.of (← Work.read e.input).kept
  let output ← Work.of (← Work.read e.output).kept
  let config ← Work.of (← Work.read n.config?).kept
  let (t, row) := db.stepLogs.insert fun id =>
    { id := id, run := run, workflow := r.workflow, node := n.id, label := some e.label,
      type := some n.typeName, status := e.status, startedAt := e.startedAt,
      completedAt := e.completedAt, duration := e.duration, error := e.error, input := input,
      output := output, config := config, summary := e.summary }
  Work.setDatabase { db with stepLogs := t }
  return row.id

def add (r : Recorder) (n : Node Item) (e : LogEntry) : Work (Option Int) :=
  match r.record? with
  | none => return none
  | some run => Work.logWrite (r.newStep run n e)

end Recorder

end StepGraph
