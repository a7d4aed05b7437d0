import StepGraph.Fields

/-!
What is asked of a run. A request is read field by field from a submitted record; every field has
two spellings, and the first one counts. `Request.entries` writes the fields that say something,
in their first spelling.
-/
namespace StepGraph

inductive Mode where
  | extraction
  | transformation
  deriving DecidableEq, Repr

namespace Mode

def name : Mode → String
  | extraction => "extraction"
  | transformation => "transformation"

def ofName? (s : String) : Option Mode := [extraction, transformation].find? fun m => m.name == s

def known : String := "['extraction', 'transformation']"

def ofName (s : String) : Except Fault Mode :=
  match ofName? s with
  | some m => .ok m
  | none => .error (.invalid ("Unknown run mode: " ++ s ++ ". Valid modes: " ++ known))

theorem ofName?_name (m : Mode) : ofName? m.name = some m := by cases m <;> decide

end Mode

structure Request where
  workflow : Option Int := none
  extracted : Value := .null
  extractedPath : Option String := none
  extractionType : Option Int := none
  transformationType : Option Int := none
  format : Option String := none
  pdfFilename : Option String := none
  givenFilename : Option String := none
  typeFilename : Option String := none
  groupTemplate : Option String := none
  pdfPath : Option String := none
  pdf : Option String := none
  pages : Option Int := none
  user : Option String := none
  sender : Option String := none
  submitter : Option String := none
  session : Option String := none
  groupOrder : Option Int := none
  context : Option (Entries Value) := none
  workflowData : Value := .null

namespace Request

def ofEntries (es : Entries Value) : Checked Request :=
  (fun workflow extracted extractedPath extractionType transformationType format pdfFilename
      givenFilename typeFilename groupTemplate pdfPath pdf pages user sender submitter session
      groupOrder context workflowData =>
    { workflow, extracted, extractedPath, extractionType, transformationType, format, pdfFilename,
      givenFilename, typeFilename, groupTemplate, pdfPath, pdf, pages, user, sender, submitter,
      session, groupOrder, context, workflowData }) <$>
    es.optional ["workflowId", "workflow_id"] Rule.whole <*>
    es.withDefault ["extractedData", "extracted_data"] .null Rule.any <*>
    es.optional ["extractedDataStoragePath", "extracted_data_storage_path"] Rule.text <*>
    es.optional ["extractionTypeId", "extraction_type_id"] Rule.whole <*>
    es.optional ["transformationTypeId", "transformation_type_id"] Rule.whole <*>
    es.optional ["formatType", "format_type"] Rule.text <*>
    es.optional ["pdfFilename", "pdf_filename"] Rule.text <*>
    es.optional ["originalPdfFilename", "original_pdf_filename"] Rule.text <*>
    es.optional ["extractionTypeFilename", "extraction_type_filename"] Rule.text <*>
    es.optional ["pageGroupFilenameTemplate", "page_group_filename_template"] Rule.text <*>
    es.optional ["pdfStoragePath", "pdf_storage_path"] Rule.text <*>
    es.optional ["pdfBase64", "pdf_base64"] Rule.text <*>
    es.optional ["pdfPages", "pdf_pages"] Rule.whole <*>
    es.optional ["userId", "user_id"] Rule.text <*>
    es.optional ["senderEmail", "sender_email"] Rule.text <*>
    es.optional ["submitterEmail", "submitter_email"] Rule.text <*>
    es.optional ["sessionId", "session_id"] Rule.text <*>
    es.optional ["groupOrder", "group_order"] Rule.whole <*>
    es.optional ["contextData", "context_data"] Rule.object <*>
    es.withDefault ["workflowOnlyData", "workflow_only_data"] .null Rule.any

def read (es : Entries Value) : Except Fault Request :=
  (ofEntries es).toExcept "WorkflowRunRequest"

def number : Option Int → Value
  | some i => .int i
  | none => .null

def fields (r : Request) : Entries Value :=
  [("workflowId", number r.workflow), ("extractedData", r.extracted),
    ("extractedDataStoragePath", .ofText? r.extractedPath),
    ("extractionTypeId", number r.extractionType),
    ("transformationTypeId", number r.transformationType), ("formatType", .ofText? r.format),
    ("pdfFilename", .ofText? r.pdfFilename), ("originalPdfFilename", .ofText? r.givenFilename),
    ("extractionTypeFilename", .ofText? r.typeFilename),
    ("pageGroupFilenameTemplate", .ofText? r.groupTemplate),
    ("pdfStoragePath", .ofText? r.pdfPath), ("pdfBase64", .ofText? r.pdf),
    ("pdfPages", number r.pages), ("userId", .ofText? r.user), ("senderEmail", .ofText? r.sender),
    ("submitterEmail", .ofText? r.submitter), ("sessionId", .ofText? r.session),
    ("groupOrder", number r.groupOrder),
    ("contextData", .ofOption (r.context.map .object)), ("workflowOnlyData", r.workflowData)]

/-- The fields that say something. Nulls inside of them are kept. -/
def entries (r : Request) : Entries Value := r.fields.filter fun e => !e.2.isNull

end Request

end StepGraph
