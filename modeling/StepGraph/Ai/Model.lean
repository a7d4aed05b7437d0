import StepGraph.Entries
import StepGraph.Value.Text

/-!
Language models: who offers them, the name under which a request asks for them, and the key that
asking takes.
-/
namespace StepGraph.Ai

inductive Vendor where
  | openAi
  | anthropic
  deriving DecidableEq, Repr

structure Model where
  vendor : Vendor
  name : String
  /-- The name that requests carry. -/
  apiName : String
  deriving DecidableEq, Repr

namespace Vendor

def name : Vendor → String
  | openAi => "OpenAI"
  | anthropic => "Anthropic"

def keySetting : Vendor → String
  | openAi => "OPENAI_API_KEY"
  | anthropic => "ANTHROPIC_API_KEY"

def offers : Vendor → Entries String
  | openAi =>
    [("gpt-4o-mini", "gpt-4o-mini"), ("gpt-4o", "gpt-4o"), ("gpt-4.1-mini", "gpt-4.1-mini"),
     ("gpt-5-mini", "gpt-5-mini"), ("gpt-5", "gpt-5")]
  | anthropic =>
    [("claude-sonnet-4-5", "claude-sonnet-4-5-20250929"),
     ("claude-haiku-4-5", "claude-haiku-4-5-20251001"),
     ("claude-opus-4-5", "claude-opus-4-5-20251101")]

def model (v : Vendor) (name : String) : Except Fault Model :=
  match v.offers.get? name with
  | some apiName => .ok ⟨v, name, apiName⟩
  | none =>
    .error (.invalid ("Unsupported " ++ v.name ++ " model: '" ++ name ++ "'. Supported models: " ++
      (Value.texts v.offers.keys).shown))

/-- A key given with the call comes before the one of the environment; one of them is needed. -/
def checkKey (v : Vendor) (env : Environment) (key : Option String) : Except Fault Unit :=
  if (key.filter (!·.isEmpty)).isSome || (env.given? v.keySetting).isSome then .ok ()
  else .error (.invalid (v.keySetting ++ " environment variable is required."))

end Vendor

end StepGraph.Ai
