import StepGraph.Run.Launch
import StepGraph.Value.Finite

/-!
Runs that wait in a queue. A queued run carries its request as a document in which fields that say
nothing are left out; performing it reads the request again, so it runs what was submitted.
-/
namespace StepGraph.Server

structure QueuedRun where
  workflow : Int
  request : Entries Value
  mode : String

def QueuedRun.ofRequest (workflow : Int) (mode : Mode) (r : Request) : QueuedRun :=
  ⟨workflow, Value.finiteEntries r.entries, mode.name⟩

/-- The request of a queued run; the run's own workflow takes the place of the request's. -/
def QueuedRun.toRequest (q : QueuedRun) : Except Fault Request :=
  Request.read (Entries.put q.request "workflowId" (.int q.workflow))

/-- How a queued run went. A run whose request cannot be read is never announced. -/
structure Performed where
  announced : Bool
  outcome : Except Fault Report

def QueuedRun.perform (q : QueuedRun) : Work Performed := do
  match q.toRequest with
  | .error f => return ⟨false, .error f⟩
  | .ok r =>
    match Mode.ofName q.mode with
    | .error f => return ⟨true, .error f⟩
    | .ok mode => return ⟨true, ← Work.attempt (Launch.run mode r)⟩

structure TaskReport where
  state : String := "PENDING"
  info : Value := .null
  result : Value := .null

def TaskReport.details (t : TaskReport) : Except Fault (Entries Value) := do
  let message (s : String) : String × Value := ("message", .text s)
  match t.state with
  | "PENDING" => return [message "Task is queued, waiting for worker"]
  | "STARTED" | "RUNNING" =>
    return message "Task is executing" :: (if t.info.truthy then [("meta", t.info)] else [])
  | "SUCCESS" =>
    return [message "Task completed successfully", ("result", t.result)] ++
      match Entries.get? t.result.entries "executionLogId" with
      | some id => [("executionLogId", id)]
      | none => []
  | "FAILURE" => return [message "Task failed", ("error", .text (← t.info.display))]
  | s => return [message ("Unknown state: " ++ s)]

def TaskReport.document (t : TaskReport) (id : String) : Except Fault Value := do
  return .object ([("task_id", .text id), ("status", .text t.state)] ++ (← t.details))

structure Queue where
  nextTask : String := "task-1"
  report : TaskReport := {}

end StepGraph.Server
