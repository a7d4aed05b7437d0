import StepGraph.Json.Writer

/-!
Everything that can stop an operation, by cause. `Fault.message` is the one place that words a
fault for a report; faults that no rule of the domain describes are reported by their label only.
-/
namespace StepGraph

/-- An operation met a value it is not made for, or a collaborator gave way in its own manner. -/
inductive Misuse where
  | noSuchMember
  | wrongKind
  | missingKey
  | outOfRange
  | tooLarge
  | tooDeep
  | undecodable
  | missingTable
  | brokenRule
  | unsupportedLeaf
  | other (label : String)
  deriving DecidableEq, Repr

def Misuse.label : Misuse → String
  | .noSuchMember => "AttributeError"
  | .wrongKind => "TypeError"
  | .missingKey => "KeyError"
  | .outOfRange => "IndexError"
  | .tooLarge => "OverflowError"
  | .tooDeep => "RecursionError"
  | .undecodable => "UnicodeDecodeError"
  | .missingTable => "OperationalError"
  | .brokenRule => "IntegrityError"
  | .unsupportedLeaf => "StatementError"
  | .other label => label

structure FieldProblem where
  place : List String
  rule : String
  deriving DecidableEq, Repr

inductive StepCause where
  /-- The configuration does not say enough; nothing outside was touched yet. -/
  | configuration
  /-- A collaborator failed. -/
  | external
  /-- The server answered with a status outside 200 to 299. -/
  | status (code : Int) (reason : String) (body : Value)
  /-- The AI provider gave no completion. -/
  | provider
  /-- The completion was not the document asked for. -/
  | reply (raw : String)
  /-- Nothing matched and the step insists on a match. -/
  | noMatch

/-- `output` is what the step had in hand when it failed. -/
structure StepFailure where
  cause : StepCause
  message : String
  output : Value

inductive Fault where
  | misuse (m : Misuse)
  /-- A value breaks a rule that has a text of its own. -/
  | invalid (text : String)
  /-- The same, told because fields of a record break their rules. -/
  | invalidFields (text : String) (problems : List FieldProblem)
  | malformed (f : Json.SyntaxFault)
  | fields (record : String) (problems : List FieldProblem)
  | step (f : StepFailure)
  /-- The graph cannot be walked at all. -/
  | badGraph (message : String) (problems : List FieldProblem)
  /-- The walk asked for one visit more than allowed. -/
  | visitCap (limit : Int)
  /-- A run ended early; the log entries say where. -/
  | run (message : String) (executionLog extractionLog : Option Int) (node label : Option String)
      (cause : Option Fault)

namespace Fault

def wrongKind : Fault := .misuse .wrongKind
def noSuchMember : Fault := .misuse .noSuchMember

def countText (n : Nat) : String :=
  toString n ++ (if n == 1 then " validation error for " else " validation errors for ")

def message : Fault → String
  | misuse m => "<" ++ m.label ++ ">"
  | invalid t => t
  | invalidFields t _ => t
  | malformed .tooDeep => "<" ++ Misuse.tooDeep.label ++ ">"
  | malformed (.tooManyDigits n) => Json.tooManyDigitsText n
  | malformed _ => "<JSONDecodeError>"
  | fields record ps => countText ps.length ++ record
  | step f => f.message
  | badGraph m _ => m
  | visitCap n =>
    "Graph traversal exceeded maximum of " ++ toString n ++
      " node visits. Possible cycle detected."
  | run m _ _ _ _ _ => m

def problems : Fault → List FieldProblem
  | fields _ ps => ps
  | invalidFields _ ps => ps
  | badGraph _ ps => ps
  | run _ _ _ _ _ (some cause) => cause.problems
  | _ => []

def isRecordTrouble : Fault → Bool
  | misuse m => [Misuse.missingTable, .brokenRule, .unsupportedLeaf].contains m
  | _ => false

def isWorkflowTrouble : Fault → Bool
  | step _ | badGraph _ _ | visitCap _ | run _ _ _ _ _ _ => true
  | _ => false

def isExternal : Fault → Bool
  | step ⟨.external, _, _⟩ => true
  | step ⟨.status _ _ _, _, _⟩ => true
  | step ⟨.provider, _, _⟩ => true
  | step ⟨.reply _, _, _⟩ => true
  | _ => false

def stepFault (cause : StepCause) (message : String) (output : Value) : Fault :=
  .step ⟨cause, message, output⟩

def configuration (message : String) : Fault := stepFault .configuration message .null

def external (message : String) : Fault := stepFault .external message .null

end Fault

def Json.Unwritable.fault : Json.Unwritable → Fault
  | .tooManyDigits => .invalid Json.tooManyDigitsToWrite
  | .leaf => .wrongKind

/-- Document text of a value; leaves that no document has are written as plain text. -/
def Value.json (l : Json.Layout) (v : Value) : Except Fault String :=
  match Json.fault? false v with
  | some u => .error u.fault
  | none => .ok (Json.render l 0 v)

def Value.strictJson (l : Json.Layout) (v : Value) : Except Fault String :=
  match Json.fault? true v with
  | some u => .error u.fault
  | none => .ok (Json.render l 0 v)

end StepGraph
