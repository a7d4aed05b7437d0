import StepGraph.World

/-!
Log writes must not change what a run does. A write that fails in one of the ways in which writes
fail is undone and has no result; any other fault is passed on. Either way the write counts as
lost.
-/
namespace StepGraph

/-- Faults of a log write that nobody has to hear of. -/
def Fault.isHarmless : Fault → Bool
  | .misuse m => (Fault.misuse m).isRecordTrouble || [.wrongKind, .undecodable].contains m
  | .invalid _ => true
  | .invalidFields _ _ => true
  | .fields _ _ => true
  | .malformed .tooDeep => false
  | .malformed _ => true
  | _ => false

namespace Work

variable {α : Type}

/-- Records are left as they were when the body fails harmlessly. -/
def bestEffort (body : Work α) : Work (Option α) := do
  let before ← database
  match ← attempt body with
  | .ok x => return some x
  | .error f =>
    if f.isHarmless then
      setDatabase before
      return none
    else throw f

def lose : Work Unit := modify fun w => { w with lost := w.lost + 1 }

def forLog (body : Work α) : Work α := do
  match ← attempt body with
  | .ok x => return x
  | .error f =>
    lose
    throw f

def exposed (body : Work (Option α)) : Work (Option α) := do
  let w ← get
  match w.outages with
  | [] => body
  | out :: rest =>
    set { w with outages := rest }
    if out then return none else body

def logWrite (body : Work α) : Work (Option α) := do
  let done ← forLog (exposed (bestEffort body))
  if done.isNone then lose
  return done

end Work

end StepGraph
