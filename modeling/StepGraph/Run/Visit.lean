import StepGraph.Steps.Check
import StepGraph.Steps.Decision
import StepGraph.Steps.Email
import StepGraph.Steps.Form
import StepGraph.Steps.Imaging
import StepGraph.Steps.ReadEmail
import StepGraph.Walk

/-!
One visit of a step: progress is recorded, the step is passed over or performed, and its record is
written. A step that fails ends the run with a report that names the node.
-/
namespace StepGraph

namespace StepKind

def perform : StepKind → Run → Step Item → Work Outcome
  | apiCall => Steps.apiCall
  | apiEndpoint => Steps.apiEndpoint
  | conditionalCheck => Steps.conditionalCheck
  | renameFile => Steps.renameFile
  | sftpUpload => Steps.sftpUpload
  | emailAction => Steps.emailAction
  | multipartUpload => Steps.multipartUpload
  | aiDecision => Steps.aiDecision
  | imaging => Steps.imaging
  | readEmail => Steps.readEmail

def keepsResponse : StepKind → Bool
  | apiCall | apiEndpoint | aiDecision => true
  | _ => false

def recordsPhases : StepKind → Bool
  | aiDecision | readEmail => true
  | _ => false

end StepKind

structure Trip where
  world : World
  run : Run

abbrev Visit (α : Type) := Attempt Trip α

namespace Visit

variable {α : Type}

def work (body : Work α) : Visit α :=
  ExceptT.mk fun t =>
    let r := body.run t.world
    (r.1, { t with world := r.2 })

def current : Visit Run := do return (← get).run

def keepResponse (x : Item) : Visit Unit := modify fun t => { t with run := { t.run with last := x } }

def summary (node : Step Item) : Visit (Option String) := do
  match node.summary with
  | none => return none
  | some "" => return none
  | some t => do
    let scope ← work (← current).scope
    some <$> work (Work.forLog (Work.of (Template.resolveSummary scope t)))

def record (body : Recorder → Work Unit) : Visit Unit := do
  match (← current).recorder with
  | none => return
  | some r => work (body r)

def snapshot : Visit Value := do work (Work.forLog (Work.read (← current).context))

def configInput (node : Step Item) : Work Item := Work.newObject [("config", node.config)]

def recordVisit (node : Step Item) (status : String) (input output : Item)
    (error : Option String := none) : Visit Unit := do
  match (← current).recorder with
  | none => return
  | some r =>
    let summary ← summary node
    work do
      let now ← Work.moment
      discard <| r.add (.step node)
        { label := node.label, status := status, startedAt := some now, completedAt := some now,
          input := input, output := output, error := error, summary := summary }

def noteProgress (node : Step Item) : Visit Unit := do
  if (← current).recorder.isSome then
    let context ← snapshot
    record fun r => r.progress node.id node.label context

def skip (node : Step Item) (reason : String) : Visit String := do
  let input ← work (configInput node)
  let output ← work (Work.plant (.object [("skipped", .bool true), ("reason", .text reason),
    ("conditionalSkip", .bool true)]))
  recordVisit node "skipped" input output (some reason)
  return defaultHandle

/-- What the failure of a step leaves to report. -/
def outputOf : Fault → Value
  | .step f => f.output
  | _ => .null

def failedInput (node : Step Item) : Visit Item := do
  if node.kind? == some .apiCall then
    let extracted ← work ((← current).entry "extractedData")
    work (Work.newObject [("config", node.config), ("extractedData", extracted)])
  else work (configInput node)

def recordFailure (node : Step Item) (f : Fault) : Visit Unit := do
  if (← current).recorder.isSome then
    let input ← failedInput node
    let output ← work (Work.plant (outputOf f))
    recordVisit node "failed" input output (some f.message)
    let context ← snapshot
    record fun r => r.fail f.message (some context)

def failure (node : Step Item) (f : Fault) : Visit Fault := do
  let r := (← current).recorder
  return .run f.message (r.bind Recorder.log) (r.bind Recorder.extractionLog) (some node.id)
    (some node.label) (some f)

def unimplemented : Value :=
  .object [("skipped", .bool true), ("reason", .text "Step type not implemented")]

def perform (node : Step Item) : Visit Outcome := do
  match node.kind? with
  | none => return { output := ← work (Work.plant unimplemented) }
  | some k =>
    let o ← work (k.perform (← current) node)
    if k.keepsResponse then keepResponse o.response
    return o

/-- The input of a performed step; the configuration where the outcome names none. -/
def inputOf (node : Step Item) (o : Outcome) : Visit Item :=
  match o.input with
  | some i => pure i
  | none => work (configInput node)

def recordOutcome (node : Step Item) (o : Outcome) : Visit Unit :=
  if node.kind?.any StepKind.recordsPhases then pure ()
  else do recordVisit node "completed" (← inputOf node o) o.output

def performed (node : Step Item) (o : Outcome) : Visit String := do
  recordOutcome node o
  return EdgeMap.handleOr o.handle

def verdict (node : Step Item) : Visit (Option String) := do
  let config ← work (Work.read node.config)
  let scope ← work (← current).scope
  work (Work.of (skipReason config scope))

def failed (node : Step Item) (f : Fault) : Visit String := do
  recordFailure node f
  throw (← failure node f)

def settle (node : Step Item) : Visit String := do
  match ← Attempt.caught (perform node) with
  | .ok o => performed node o
  | .error f => failed node f

def step (node : Step Item) : Visit String := do
  noteProgress node
  match ← verdict node with
  | some reason => skip node reason
  | none => settle node

end Visit

end StepGraph
