import StepGraph.Ai.Match
import StepGraph.Service.Collaborator
import StepGraph.Steps.Request

/-!
Choosing a record. Candidates come from an API; a single one is taken as it is, otherwise the AI
provider names one, and the choice is checked against the fields that the provider repeats. Every
phase is recorded by itself.
-/
namespace StepGraph.Steps

structure DecisionSettings where
  arrayPath : Value
  instruction : Value
  returnPath : Value
  outputName : Value
  skipsSingle : Bool
  insists : Bool

def DecisionSettings.ofConfig (config : Value) : DecisionSettings where
  arrayPath := (config.field "resultArrayPath").orElse (.text "")
  instruction := (config.field "aiInstruction").orElse (.text "")
  returnPath := (config.field "returnFieldPath").orElse (.text "")
  outputName := (config.field "outputVariableName").orElse (.text "")
  skipsSingle :=
    match config.field "skipAiIfSingleResult" with
    | .bool false => false
    | _ => true
  insists := (config.field "failOnNoMatch").truthy

/-- A decision step at work: the request that was sent and what it gave. -/
structure Lookup where
  settings : DecisionSettings
  source : Entries Value
  url : String
  method : String
  response : Response
  candidates : List Item

namespace Lookup

def head (l : Lookup) : Entries Item :=
  [("url", .text l.url), ("method", .text l.method),
    ("candidateCount", .int l.candidates.length)]

end Lookup

def phaseSource : String := "Source Field Resolution"
def phaseLookup : String := "API Lookup"
def phaseMatching : String := "AI Matching"

def resolveSource (run : Run) (node : Step Item) (config : Value) : Work (Entries Value) := do
  let fields := (config.field "sourceFields").orElse (.list [])
  let source ← Work.of (Match.resolveSource fields (← run.scope))
  let input ← Work.plant (.object [("sourceFields", fields)])
  let output ← Work.plant (.object [("resolvedSourceFields", .object source)])
  run.logPhase node phaseSource "completed" input output
  return source

def bodyText (body : Value) : Except Fault String :=
  match body with
  | .text s => .ok s
  | v => v.json Json.spaced

def refuseLookup (run : Run) (node : Step Item) (request : Entries Value) (url : String)
    (r : Response) : Work Unit := do
  let body ← Work.read r.body
  let text ← Work.of (bodyText body)
  let status : Entries Value := [("responseStatus", .int r.status), ("error", .text text)]
  run.logPhase node phaseLookup "failed" (← Work.plant (.object request))
    (← Work.plant (.object status)) (some ("API call failed: " ++ toString r.status))
  throw (statusFault r body
    ("AI Decision API call failed with status " ++ toString r.status ++ ": " ++ text)
    (.object (("url", .text url) :: status)))

def maxLoggedCandidates : Nat := 20

def shownCandidates (candidates : List Item) : Work Item :=
  if candidates.length ≤ maxLoggedCandidates then Work.newList candidates
  else return .text (toString candidates.length ++ " records (truncated)")

def lookUp (run : Run) (node : Step Item) (config : Value) : Work Lookup := do
  let settings := DecisionSettings.ofConfig config
  let source ← resolveSource run node config
  let scope ← run.scope
  let p ← profileOf config "main"
  let method ← Work.of (methodOf config "httpMethod" "GET")
  let url ← Work.of (endpointUrl p config scope)
  let headers := Entries.put [] Http.contentTypeName "application/json"
  Work.require .http
  let r ← Http.send
    { method := method, url := url, headers := Entries.merge headers p.authHeaders }
  let request : Entries Value :=
    [("url", .text url), ("method", .text method), ("apiSourceType", sourceOf config "main")]
  if !r.isSuccess then refuseLookup run node request url r
  let candidates ← Work.of (Match.candidates (← Work.store).view r.body settings.arrayPath)
  let input ← Work.plant (.object (request ++ [("resultArrayPath", settings.arrayPath)]))
  let output ← Work.newObject [("responseStatus", .int r.status),
    ("candidateCount", .int candidates.length), ("candidates", ← shownCandidates candidates)]
  run.logPhase node phaseLookup "completed" input output
  return ⟨settings, source, url, method, r, candidates⟩

def storeOutput (run : Run) (s : DecisionSettings) (x : Item) : Work Unit := do
  Work.edit (Mapping.storeOutput run.context s.outputName x)
  run.noteName s.outputName

def choose (run : Run) (config : Value) (s : DecisionSettings) (matched : Item) : Work Item := do
  let x ←
    if s.returnPath.truthy then Work.edit (Edit.lookup matched s.returnPath) else pure matched
  storeOutput run s x
  Work.edit (Mapping.recordAll run.context matched (config.field "responseDataMappings"))
  return x

def noCandidatesText : String := "AI Decision: API returned zero candidates. Cannot match."

def decideNone (l : Lookup) : Work Outcome := do
  if l.settings.insists then
    throw (.stepFault .noMatch noCandidatesText (.object [("url", .text l.url),
      ("method", .text l.method), ("candidateCount", .int 0)]))
  let output ← Work.newObject (l.head ++ [("matchedRecord", .null), ("matchedValue", .null),
    ("aiSkipped", .bool true), ("reason", .text "No candidates returned from API")])
  return { output := output, response := l.response.body }

def decideSingle (run : Run) (node : Step Item) (config : Value) (l : Lookup) (matched : Item) :
    Work Outcome := do
  let x ← choose run config l.settings matched
  let result : Entries Item := [("aiSkipped", .bool true),
    ("reason", .text "Single candidate - AI skipped"), ("matchedRecord", matched),
    ("matchedValue", x), ("outputVariable", ← Work.plant l.settings.outputName)]
  let input ← Work.plant (.object [("candidateCount", .int 1), ("skipAiIfSingleResult", .bool true),
    ("resolvedSourceFields", .object l.source)])
  run.logPhase node phaseMatching "completed" input (← Work.newObject result)
  let output ← Work.newObject (l.head ++ result)
  return { output := output, response := l.response.body }

def namedPlace? (result : Entries Value) : Option Int :=
  match Entries.get? result "matchIndex" with
  | some (.int i) => some i
  | some (.float x) =>
    match Decimal.Reading.ofFloat x with
    | .finite d => if d.isWhole then some d.truncate else none
    | _ => none
  | _ => none

/-- A reply with a place: without a readable one it names the first candidate. -/
def withPlace (result : Entries Value) : Except Fault (Entries Value) := do
  match namedPlace? result with
  | some i => return Entries.put result "matchIndex" (.int i)
  | none =>
    let reason := (← Match.reasonText result) ++ " [Forced to first candidate - invalid matchIndex]"
    return Entries.put (Entries.put result "reason" (.text reason)) "matchIndex" (.int 0)

/-- A reply that is no object counts as a reason. -/
def replyEntries (reply : Value) : Except Fault (Entries Value) :=
  match reply with
  | .object es => .ok es
  | v => do return [("reason", .text (← v.display))]

def candidateAt? (candidates : List Item) (result : Entries Value) : Option Item :=
  match Entries.get? result "matchIndex" with
  | some (.int i) => if i < 0 then none else candidates[i.toNat]?
  | _ => none

def ask (l : Lookup) : Work (Entries Value) := do
  let candidates ← l.candidates.mapM Work.read
  let keys := Match.identifiers (candidates.headD .null)
  let question ← Work.of (Match.prompt l.source candidates keys l.settings.instruction)
  let text ← Ai.complete [Ai.textPart question]
  let reply ← Work.of (Completion.read text
    (.object [("url", .text l.url), ("candidateCount", .int l.candidates.length)]))
  let placed ← Work.of (do withPlace (← replyEntries reply))
  Work.of (Match.verify placed candidates keys)

def noMatchText (result : Entries Value) : Except Fault String := do
  let reason ← (Value.ofOption (Entries.get? result "reason")).display
  return "AI Decision: No confident match found. Reason: " ++ reason

def Lookup.unmatched (l : Lookup) (result : Entries Value) : Entries Value :=
  [("aiResult", .object result), ("matchedRecord", .null), ("matchedValue", .null),
    ("outputVariable", l.settings.outputName)]

def refuseUnmatched (run : Run) (node : Step Item) (l : Lookup) (input : Item)
    (result : Entries Value) (message : String) : Work Outcome := do
  run.logPhase node phaseMatching "failed" input (← Work.plant (.object (l.unmatched result)))
    (some message)
  throw (.stepFault .noMatch message
    (.object ([("url", .text l.url), ("method", .text l.method)] ++ l.unmatched result)))

def acceptUnmatched (run : Run) (node : Step Item) (l : Lookup) (input : Item)
    (result : Entries Value) : Work Outcome := do
  run.logPhase node phaseMatching "completed" input (← Work.plant (.object (l.unmatched result)))
  storeOutput run l.settings .null
  let parts ← Work.plant (.object (l.unmatched result))
  let output ← Work.newObject (l.head ++ (← Work.store).entries parts)
  return { output := output, response := l.response.body }

def decideUnmatched (run : Run) (node : Step Item) (l : Lookup) (input : Item)
    (result : Entries Value) : Work Outcome := do
  let message ← Work.of (noMatchText result)
  if l.settings.insists then refuseUnmatched run node l input result message
  else acceptUnmatched run node l input result

def decideAsked (run : Run) (node : Step Item) (config : Value) (l : Lookup) : Work Outcome := do
  let model := (← Ai.provider).model
  let result ← ask l
  let input ← Work.plant (.object [("candidateCount", .int l.candidates.length),
    ("resolvedSourceFields", .object l.source), ("aiInstruction", l.settings.instruction),
    ("model", .text model)])
  match candidateAt? l.candidates result with
  | none => decideUnmatched run node l input result
  | some matched =>
    let x ← choose run config l.settings matched
    let found : Entries Item := [("aiResult", ← Work.plant (.object result)),
      ("matchedRecord", matched), ("matchedValue", x),
      ("outputVariable", ← Work.plant l.settings.outputName)]
    run.logPhase node phaseMatching "completed" input (← Work.newObject found)
    let output ← Work.newObject (l.head ++ found ++ [("model", .text model)])
    return { output := output, response := l.response.body }

def aiDecision (run : Run) (node : Step Item) : Work Outcome := do
  let config ← Work.read node.config
  let l ← lookUp run node config
  match l.candidates with
  | [] => decideNone l
  | [c] =>
    if l.settings.skipsSingle then decideSingle run node config l c
    else decideAsked run node config l
  | _ => decideAsked run node config l

end StepGraph.Steps
