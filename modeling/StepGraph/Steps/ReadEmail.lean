import StepGraph.Ai.Completion
import StepGraph.Run.State
import StepGraph.Service.Collaborator
import StepGraph.Template
import StepGraph.Text.Search
import StepGraph.Value.Cast
import StepGraph.Value.Text
import StepGraph.View

/-!
Filling fields from a message. Literal fields come first, fields with templates second, and the AI
provider reads the rest in one go, by one question; a field that several mappings name has the last
value.
-/
namespace StepGraph.Extraction

def fieldLine (m : Value) : Except Fault String := do
  let name ←
    match m with
    | .object es =>
      match Entries.get? es "fieldName" with
      | some n => n.display
      | none => throw (.misuse .missingKey)
    | _ => throw .wrongKind
  let type ← ((m.field "dataType").orElse (.text "string")).display
  let wish ← ((m.field "value").orElse (.text "")).display
  let source :=
    match m.field "location" with
    | .text "subject" => "EMAIL SUBJECT"
    | _ => "EMAIL BODY"
  return "- \"" ++ name ++ "\" (" ++ type ++ "): " ++ wish ++ " [Source: " ++ source ++ "]"

def prompt (mappings : List Value) (subject body : Value) : Except Fault String := do
  let lines ← mappings.mapM fieldLine
  return "You are a data extraction assistant. Extract the following fields from the provided " ++
    "email content.\n\n" ++
    "EMAIL SUBJECT:\n" ++ (← subject.display) ++ "\n\n" ++
    "EMAIL BODY:\n" ++ (← body.display) ++ "\n\n" ++
    "FIELDS TO EXTRACT:\n" ++ Text.join "\n" lines ++ "\n\n" ++
    "RULES:\n" ++
    "- Return ONLY a valid JSON object with the field names as keys and extracted values.\n" ++
    "- For each field, use the instruction and source location to find the correct value.\n" ++
    "- If a field cannot be found, use null as the value.\n" ++
    "- For number/integer types, return numeric values (not strings).\n" ++
    "- For boolean types, return true or false.\n" ++
    "- For date_only types, return in YYYY-MM-DD format.\n" ++
    "- For datetime types, return in ISO 8601 format.\n" ++
    "- For rin types, return alphanumeric characters only in uppercase.\n\n" ++
    "Return ONLY the JSON object, no markdown formatting, no code blocks, no extra text."

end StepGraph.Extraction

namespace StepGraph.Steps

/-- Fields by name, in the order in which they were first filled. -/
abbrev Filled := Entries Value

def castTo (m raw : Value) : Except Fault Value :=
  raw.cast (Value.Cast.DataType.ofValue ((m.field "dataType").orElse (.text "string")))

def fillField (value : Value → Except Fault Value) (done : Filled) (m : Value) :
    Except Fault Filled :=
  let name := m.field "fieldName"
  if !name.truthy then .ok done
  else do
    let x ← castTo m (← value m)
    return Entries.put done (← Edit.keyOf name) x

def literalValue (m : Value) : Except Fault Value := .ok (m.field "value")

def templateValue (scope : Scope) (m : Value) : Except Fault Value := do
  return .text (← Template.resolve scope ((m.field "value").orElse (.text "")))

def replyValue (reply : Value) (m : Value) : Except Fault Value :=
  match m.field "fieldName" with
  | .list _ => .error .wrongKind
  | .object _ => .error .wrongKind
  | .text name => .ok (reply.field name)
  | _ => .ok .null

def ofKind (kind : String) (mappings : List Value) : List Value :=
  mappings.filter fun m =>
    match m.field "type" with
    | .text t => t == kind
    | _ => false

def lengthOf (v : Value) : Except Fault Nat :=
  match v with
  | .text s => .ok s.length
  | .list xs => .ok xs.length
  | .object es => .ok es.length
  | .bytes b => .ok b.size
  | _ => .error .wrongKind

def extractedOf (filled : Filled) (mappings : List Value) : Except Fault Filled :=
  let add (es : Filled) (m : Value) : Except Fault Filled :=
    let name := m.field "fieldName"
    if !name.truthy then .ok es
    else do
      let k ← Edit.keyOf name
      return Entries.put es k (Value.ofOption (Entries.get? filled k))
  mappings.foldlM add []

def askFields (run : Run) (node : Step Item) (mappings : List Value) (done : Filled) :
    Work Filled := do
  let model := (← Ai.provider).model
  let subject := (← run.entryValue "emailSubject").orElse (.text "")
  let body := (← run.entryValue "emailBody").orElse (.text "")
  let question ← Work.of (Extraction.prompt mappings subject body)
  let text ← Ai.complete [Ai.textPart question]
  let reply : Value :=
    match ← Work.of (Completion.read text .null) with
    | .object es => .object es
    | _ => .object []
  let filled ← Work.of (mappings.foldlM (fillField (replyValue reply)) done)
  let input ← Work.plant (.object [("aiMappingCount", .ofNat mappings.length),
    ("model", .text model), ("emailSubjectLength", .ofNat (← Work.of (lengthOf subject))),
    ("emailBodyLength", .ofNat (← Work.of (lengthOf body)))])
  let output ← Work.plant (.object [("aiResponse", reply),
    ("extractedFields", .object (← Work.of (extractedOf filled mappings)))])
  run.logPhase node "AI Extraction" "completed" input output
  return filled

def writeFields (run : Run) (fields : Filled) : Work Unit := do
  let extracted ← Work.edit (Edit.run' fun s => Context.ensureExtracted s run.context)
  fields.forM fun e => do
    let x ← Work.plant e.2
    run.set e.1 x
    Work.edit (Edit.set extracted e.1 x)

def noteFields (run : Run) (mappings : List Value) : Work Unit :=
  mappings.forM fun m => do
    let name := m.field "fieldName"
    if name.truthy then run.noteName name

def nothingToRead : Value :=
  .object [("skipped", .bool true), ("reason", .text "No email field mappings configured")]

def readMappings (run : Run) (node : Step Item) (mappings : List Value) : Work Outcome := do
  let hardcoded := ofKind "hardcoded" mappings
  let functions := ofKind "function" mappings
  let asked := ofKind "ai" mappings
  let done ← Work.of (hardcoded.foldlM (fillField literalValue) [])
  let done ← Work.of (functions.foldlM (fillField (templateValue (← run.scope))) done)
  let input ← Work.plant (.object [("hardcodedCount", .ofNat hardcoded.length),
    ("functionCount", .ofNat functions.length)])
  run.logPhase node "Hardcoded & Function Fields" "completed" input
    (← Work.plant (.object [("results", .object done)]))
  let fields ← if asked.isEmpty then pure done else askFields run node asked done
  writeFields run fields
  noteFields run (hardcoded ++ functions ++ asked)
  let output ← Work.plant (.object [("fieldsExtracted", .ofNat fields.length),
    ("fields", .object fields), ("aiFieldCount", .ofNat asked.length),
    ("hardcodedFieldCount", .ofNat hardcoded.length),
    ("functionFieldCount", .ofNat functions.length)])
  return { output := output }

def readEmail (run : Run) (node : Step Item) : Work Outcome := do
  let config ← Work.read node.config
  let mappings := (← Work.of (config.field "emailFieldMappings").optionalParts).filter Value.isObject
  if mappings.isEmpty then return { output := ← Work.plant nothingToRead }
  else readMappings run node mappings

end StepGraph.Steps
