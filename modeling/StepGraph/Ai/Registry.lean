import StepGraph.Ai.Model
import StepGraph.Attempt
import StepGraph.Text.Search

/-!
Clients for language models, by model name or alias. A client is built once for a name and a key
and then handed out again until the registry is cleared. An alias is a name of its own, so it has
a client of its own.
-/
namespace StepGraph.Ai

def catalogue : Entries (Vendor × String) :=
  [("gpt-4o-mini", .openAi, "gpt-4o-mini"), ("gpt-4o", .openAi, "gpt-4o"),
   ("gpt-4.1-mini", .openAi, "gpt-4.1-mini"), ("gpt-5-mini", .openAi, "gpt-5-mini"),
   ("gpt-5", .openAi, "gpt-5"), ("mini", .openAi, "gpt-4o-mini"),
   ("claude-sonnet-4-5", .anthropic, "claude-sonnet-4-5"),
   ("claude-haiku-4-5", .anthropic, "claude-haiku-4-5"),
   ("claude-opus-4-5", .anthropic, "claude-opus-4-5"),
   ("sonnet", .anthropic, "claude-sonnet-4-5"), ("haiku", .anthropic, "claude-haiku-4-5"),
   ("opus", .anthropic, "claude-opus-4-5")]

def modelNames : List String := (Entries.keys catalogue).mergeSort fun a b => decide (a ≤ b)

def isModel (name : String) : Bool := Entries.has catalogue name

def modelSetting : String := "AI_MODEL"

def defaultModel : String := "gpt-4o-mini"

/-- Two clients are the same one when they have the same serial number. -/
structure Client where
  serial : Nat
  model : Model
  deriving DecidableEq, Repr

def Client.className (c : Client) : String := c.model.vendor.name ++ "Provider"

def Client.summary (c : Client) : String :=
  "<" ++ c.className ++ "(model=" ++ c.model.name ++ ")>"

structure Registry where
  environment : Environment := []
  /-- How many clients were built so far. -/
  built : Nat := 0
  kept : Entries Client := []

namespace Registry

def build (v : Vendor) (name : String) (key : Option String) : Attempt Registry Client := do
  let m ← Attempt.of (v.model name)
  let r ← get
  Attempt.of (v.checkKey r.environment key)
  set { r with built := r.built + 1 }
  return ⟨r.built, m⟩

/-- Where a client is kept; a call without a key has a place of its own. -/
def place (name : String) (key : Option String) : String :=
  name ++ ":" ++ (key.filter (!·.isEmpty)).getD "default"

def unknownModel (name : String) : Fault :=
  .invalid ("Unknown model: '" ++ name ++ "'. Available models: " ++ Text.join ", " modelNames)

def client (name : String) (key : Option String) : Attempt Registry Client := do
  if name.isEmpty then throw (.invalid "Model name cannot be empty")
  match (← get).kept.get? (place name key) with
  | some c => return c
  | none =>
    match Entries.get? catalogue name with
    | none => throw (unknownModel name)
    | some (v, model) =>
      let c ← build v model key
      modify fun r => { r with kept := r.kept.put (place name key) c }
      return c

def defaultClient : Attempt Registry (Option Client) := do
  let name := ((← get).environment.get? modelSetting).getD defaultModel
  match ← Attempt.caught (client name none) with
  | .ok c => return some c
  | .error _ => return none

def clear (r : Registry) : Registry := { r with kept := [] }

def setEnvironment (r : Registry) (name value : String) : Registry :=
  { r with environment := r.environment.put name value }

end Registry

end StepGraph.Ai
