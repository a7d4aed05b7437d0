import StepGraph.Audit.BestEffort
import StepGraph.FieldFunction.Apply
import StepGraph.File.Payload
import StepGraph.Run.Request
import StepGraph.Time.Pacific
import StepGraph.World

/-!
The context with which a run starts, and the computed fields of its payload. The context is laid in
layers, later layers over earlier ones: the fields of the request, its workflow data, its own
context, the payload, the first order, and what earlier groups of the session gave. A layer only
names values; it changes none of them. What can go wrong with stored functions and mappings does
not stop the run.
-/
namespace StepGraph.Enrich

def isFunctionMapping (m : Value) : Bool :=
  (match m.field "type" with
    | .text t => t == "function"
    | _ => false) && (m.field "functionId").truthy

/-- The mappings that name a function. They are stored as a list or as its document text; other
text has none. -/
def functionMappings (stored : Value) : Except Fault (List Value) := do
  let stored ← match stored with
    | .text s => Payload.documentOr .null s
    | v => pure v
  return ((← stored.optionalParts).filter Value.isObject).filter isFunctionMapping

def queryKey (m : Value) : Except Fault (Option Int) :=
  match m.field "functionId" with
  | .scalar (.int i) => .ok (some i)
  | .scalar _ => .ok none
  | _ => .error .wrongKind

def library (mappings : List Value) : Work FieldFunction.Library := do
  let keys ← Work.of (mappings.mapM queryKey)
  let rows ← Work.of (← Work.database).functions.all
  Work.of (heldAll keys)
  rows.mapM fun r => do return (.int r.id, ← Work.plant r.logic)

def applyStored (mappings : List Value) (payload : Item) : Work Nat := do
  FieldFunction.applyAll FieldFunction.defaultAttempts (← library mappings) mappings payload

def payload (kind : Option DocumentKind) (format : String) (payload : Item) : Work Unit := do
  match kind with
  | none => return
  | some k =>
    if format == Payload.csvFormat || !(← Work.store).isContainer payload then return
    let mappings ← Work.of (functionMappings k.fieldMappings)
    if mappings.isEmpty then return
    match ← Work.attempt (applyStored mappings payload) with
    | .ok _ => return
    | .error f => if f.isHarmless || f.isWorkflowTrouble then return else throw f

end StepGraph.Enrich

namespace StepGraph.Seed

/-- What a context is seeded from. `submitted` is the data as it was handed in; a payload that was
handed in as a container is that very container. -/
structure Source where
  mode : Mode := .extraction
  request : Request
  submitted : Item
  payload : Item
  format : String
  kind : Option DocumentKind := none

def given (s : Option String) : Option String := s.filter (!·.isEmpty)

def textItem : Option String → Item
  | some s => .text s
  | none => .null

def either (a b : Option String) : Option String := (given a).or b

/-- Workflow data as an object, or the document text of one; anything else has no fields. -/
def workflowFields (raw : Value) : Except Fault (Entries Value) :=
  match raw with
  | .object es => .ok es
  | .text s => if s.isEmpty then .ok [] else Value.entries <$> Payload.documentOr .null s
  | _ => .ok []

/-- The filename of the document's kind, the page group's own template first. -/
def kindFilename (c : Source) : Option String :=
  either c.request.groupTemplate
    (either (c.kind.bind DocumentKind.filenameTemplate) c.request.typeFilename)

def kindName (c : Source) : String := ((given (c.kind.map DocumentKind.name))).getD "Unknown"

def timestamp (now : Int) : String :=
  (((Time.Moment.ofEpoch? now).bind Time.Pacific.local?).map Time.Pacific.text).getD ""

def extractionFields (c : Source) (now : Int) : Entries Item :=
  let r := c.request
  [("extractedData", c.payload), ("originalExtractedData", c.submitted),
    ("formatType", .text c.format), ("pdfFilename", textItem (either r.typeFilename r.pdfFilename)),
    ("originalPdfFilename", textItem r.givenFilename),
    ("extractionTypeFilename", textItem (kindFilename c)),
    ("pageGroupFilenameTemplate", textItem r.groupTemplate),
    ("pdfStoragePath", textItem r.pdfPath), ("pdfBase64", textItem r.pdf),
    ("userId", textItem (given r.user)),
    ("senderEmail", textItem ((given r.sender).or (given r.submitter))),
    ("submitterEmail", textItem (given r.submitter)),
    ("extractionTypeName", .text (kindName c)), ("timestamp", .text (timestamp now))]

def transformationFields (c : Source) : Entries Item :=
  let r := c.request
  [("extractedData", c.payload), ("originalExtractedData", c.submitted),
    ("formatType", .text c.format), ("pdfFilename", textItem r.pdfFilename),
    ("transformSetupFilename", textItem r.pdfFilename),
    ("originalPdfFilename", textItem r.givenFilename),
    ("extractionTypeFilename", textItem (kindFilename c)),
    ("pageGroupFilenameTemplate", textItem r.groupTemplate),
    ("pdfStoragePath", textItem r.pdfPath), ("pdfBase64", textItem r.pdf),
    ("userId", textItem (given r.user))]

def plantFields (es : Entries Value) : Work (Entries Item) :=
  es.mapM fun e => do return (e.1, ← Work.plant e.2)

def modeLayers (c : Source) : Work (List (Entries Item)) := do
  match c.mode with
  | .transformation => return [transformationFields c]
  | .extraction =>
    let more ← Work.of (workflowFields c.request.workflowData)
    return [extractionFields c (← get).now, ← plantFields more]

/-- The payload's fields and those of its first order; data of the format CSV has none. -/
def payloadLayers (s : Store) (c : Source) : List (Entries Item) :=
  if c.format == Payload.csvFormat then []
  else
    let first :=
      match s.layer (s.field c.payload "orders") with
      | .list (o :: _) => s.entries o
      | _ => []
    [s.entries c.payload, first]

def groupEntries (g : GroupData) : Except Fault (Entries Value) :=
  if g.fields.truthy then
    match g.fields with
    | .object es => .ok (es.map fun e => ("group" ++ toString g.order ++ "_" ++ e.1, e.2))
    | _ => .error .noSuchMember
  else .ok []

def earlierGroups (session : String) (order : Int) (groups : List GroupData) : List GroupData :=
  (groups.filter fun g => g.session == session && g.order < order).mergeSort
    fun a b => a.order ≤ b.order

def groupFields (session : String) (order : Int) : Work (Entries Value) := do
  let rows ← Work.of (← Work.database).groups.all
  let order ← Work.of (held order)
  let layers ← Work.of ((earlierGroups session order rows).mapM groupEntries)
  return layers.foldl Entries.merge []

/-- Earlier groups count from the second group on. Records that cannot be asked have no fields. -/
def groupLayer (r : Request) : Work (Entries Item) := do
  match given r.session, r.groupOrder with
  | some session, some order =>
    if order ≤ 1 then return []
    else
      match ← Work.attempt (groupFields session order) with
      | .ok es => plantFields es
      | .error f => if f.isRecordTrouble then return [] else throw f
  | _, _ => return []

def layers (c : Source) (hasRecords : Bool) : Work (List (Entries Item)) := do
  let own ← modeLayers c
  let context ← plantFields (c.request.context.getD [])
  let payload := payloadLayers (← Work.store) c
  let groups ← if hasRecords then groupLayer c.request else pure []
  return own ++ [context] ++ payload ++ [groups]

def build (c : Source) (hasRecords : Bool) : Work (Entries Item) := do
  return (← layers c hasRecords).foldl Entries.merge []

end StepGraph.Seed
