import StepGraph.Condition
import StepGraph.Run.State

/-!
The branching step: conditions on the context choose between the handles of success and failure.
-/
namespace StepGraph.Steps

def successHandle : String := "success"

def failureHandle : String := "failure"

structure Checked where
  path : String
  operator : Value
  expected : Value
  actual : Item
  met : Bool

def firstSetting (config : Value) (names : List String) : Value :=
  names.foldr (fun n rest => (config.field n).orElse rest) .null

def check (run : Run) (path : String) (operator expected : Value) : Work Checked := do
  let actual := (← Work.store).lookup run.context path
  let met ← Work.of (Condition.test (← Work.read actual) operator expected)
  return ⟨path, operator, expected, actual, met⟩

def checkMain (run : Run) (config : Value) : Work Checked := do
  let path ← Work.of
    (Condition.cleanPath (firstSetting config ["fieldPath", "jsonPath", "checkField"]))
  let operator := (firstSetting config ["operator", "conditionType"]).orElse (.text "exists")
  check run path operator (config.field "expectedValue")

def checkFurther (run : Run) (c : Value) : Work Checked := do
  discard <| Work.of (c.member "jsonPath")
  let path ← Work.of (Condition.cleanPath (firstSetting c ["jsonPath", "fieldPath"]))
  check run path ((c.field "operator").orElse (.text "exists")) (c.field "expectedValue")

namespace Checked

def entries (c : Checked) (met : Bool) : Work (Entries Item) := do
  return [("conditionMet", .bool met), ("fieldPath", .text c.path),
    ("operator", ← Work.plant c.operator), ("actualValue", c.actual),
    ("expectedValue", ← Work.plant c.expected)]

end Checked

/-- All conditions have to hold, or one of them where the configuration says so. -/
def combined (config : Value) (results : List Bool) : Except Fault Bool := do
  let how ← ((config.field "logicalOperator").orElse (.text "AND")).display
  return if Text.upper how == "OR" then results.any id else results.all id

def conditionalCheck (run : Run) (node : Step Item) : Work Outcome := do
  let config ← Work.read node.config
  let name := (config.field "storeResultAs").orElse (.text ("condition_" ++ node.id ++ "_result"))
  let main ← checkMain run config
  let further ← (← Work.of (config.field "additionalConditions").optionalParts).mapM
    (checkFurther run)
  let met ←
    if further.isEmpty then pure main.met
    else Work.of (combined config (main.met :: further.map Checked.met))
  let results ← further.mapM fun c => do Work.newObject (← c.entries c.met)
  let additional ←
    if further.isEmpty then pure []
    else pure [("additionalResults", ← Work.newList results)]
  let output ← Work.newObject
    ((← main.entries met) ++ [("storeResultAs", ← Work.plant name)] ++ additional)
  run.setNamed name (.bool met)
  return { output := output, handle := if met then successHandle else failureHandle }

end StepGraph.Steps
