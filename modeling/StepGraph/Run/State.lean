import StepGraph.Audit.Recorder

/-!
What the steps of one run share: the context, the last API response, the format of the run's data
and the audit trail.
-/
namespace StepGraph

structure Run where
  context : Item
  last : Item := .null
  format : String := "JSON"
  workflow : Option Int := none
  recorder : Option Recorder := none

/-- What a step leaves: its output, the handle by which the walk goes on, the response that it
received, and its input when that says more than the configuration. -/
structure Outcome where
  output : Item
  handle : String := defaultHandle
  response : Item := .null
  input : Option Item := none

namespace Run

def dataKind (run : Run) : FileKind := .ofFormat run.format

def entry (run : Run) (k : String) : Work Item := do return Context.get (← Work.store) run.context k

def entryValue (run : Run) (k : String) : Work Value := do Work.read (← run.entry k)

def firstEntry (run : Run) : List String → Work Value
  | [] => return .null
  | [k] => run.entryValue k
  | k :: rest => do
    let v ← run.entryValue k
    if v.truthy then return v else run.firstEntry rest

def scope (run : Run) : Work Scope := do return (← Work.scope run.context).written

/-- The last response; a path of null leads nowhere. -/
def responseScope (run : Run) : Work Scope := do return (← Work.scope run.last).written

def set (run : Run) (k : String) (x : Item) : Work Unit := Work.edit (Edit.set run.context k x)

def noteName (run : Run) (name : Value) : Work Unit := do
  if name.isText then return
  modify fun w => { w with oddNames := w.oddNames ++ [(run.context, name)] }

def setNamed (run : Run) (name : Value) (x : Item) : Work Unit := do
  run.set (← Work.of (Edit.keyOf name)) x
  run.noteName name

def logPhase (run : Run) (node : Step Item) (phase status : String) (input output : Item)
    (error : Option String := none) : Work Unit := do
  match run.recorder with
  | none => return
  | some r =>
    let now ← Work.moment
    discard <| r.add (.step node)
      { label := node.label ++ " - " ++ phase, status := status, startedAt := some now,
        completedAt := some now, input := input, output := output, error := error }

end Run

end StepGraph
