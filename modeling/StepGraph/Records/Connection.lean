import StepGraph.Fault
import StepGraph.Records.Database
import StepGraph.Text.Search
import StepGraph.Time.Iso

/-! Where the records are kept, and loading records that are written as documents. -/
namespace StepGraph.Database

open Time (Moment)

def addressSetting : String := "DATABASE_URL"

def shortScheme : String := "postgres://"

def longScheme : String := "postgresql://"

/-- A short scheme at the front is written out; the rest of an address stays as it is. -/
def fullAddress (s : String) : String :=
  if Text.startsWith s shortScheme then longScheme ++ Text.dropFront shortScheme.length s else s

def address? (env : Environment) : Option String := (env.get? addressSetting).map fullAddress

def unconnected : Fault :=
  .invalid (addressSetting ++ " environment variable not set. Please configure it in .env file.")

/-- Loaded records that name no time of their own are dated from here, one second apart. -/
def loadEpoch : Int := 1704067200

def loadTime (index : Nat) : Moment := (Moment.ofEpoch? (loadEpoch + index)).getD default

def timeOf (es : Entries Value) (k : String) (default : Moment) : Moment :=
  let t :=
    match Entries.get? es k with
    | some (.text s) => (Time.Iso.read? s).getD default
    | some (.moment t) => t
    | _ => default
  { t with offset := none }

def rowId {ρ : Type} [Numbered ρ] (t : Table ρ) (es : Entries Value) (k : String) : Int :=
  (Column.int? es k).getD t.nextId

def load {ρ : Type} [Numbered ρ] (t : Table ρ) (es : Entries Value)
    (make : Entries Value → Int → ρ) : Table ρ :=
  { t with rows := t.rows ++ [make es (rowId t es "id")] }

def loadRow (now : Moment) (table : String) (db : Database) (index : Nat) (es : Entries Value) :
    Database :=
  let created := timeOf es "created_at" (loadTime index)
  let started := timeOf es "started_at" now
  match table with
  | "execution_logs" =>
    { db with executionLogs := load db.executionLogs es fun es id => .ofEntries es id started }
  | "step_logs" => { db with stepLogs := load db.stepLogs es .ofEntries }
  | "extraction_logs" => { db with extractionLogs := load db.extractionLogs es .ofEntries }
  | "extraction_types" => { db with extractionTypes := load db.extractionTypes es .ofEntries }
  | "transformation_types" =>
    { db with transformationTypes := load db.transformationTypes es .ofEntries }
  | "extraction_group_data" => { db with groups := load db.groups es .ofEntries }
  | "field_mapping_functions" => { db with functions := load db.functions es .ofEntries }
  | "api_settings" => { db with mainApis := load db.mainApis es .ofEntries }
  | "secondary_api_configs" => { db with secondaryApis := load db.secondaryApis es .ofEntries }
  | "sftp_configs" => { db with sftp := load db.sftp es .ofEntries }
  | "email_configs" => { db with mail := load db.mail es .ofEntries }
  | "imaging_buckets" => { db with buckets := load db.buckets es .ofEntries }
  | "imaging_document_types" => { db with documentTypes := load db.documentTypes es .ofEntries }
  | "imaging_barcode_patterns" => { db with patterns := load db.patterns es .ofEntries }
  | "imaging_documents" =>
    { db with documents := load db.documents es fun es id => .ofEntries es id created }
  | "imaging_unindexed_queue" => { db with waiting := load db.waiting es .ofEntries }
  | "workflows" =>
    let updated := timeOf es "updated_at" now
    { db with workflows := load db.workflows es fun es id => .ofEntries es id created updated }
  | "workflow_nodes" =>
    { db with nodes := { db.nodes with rows := db.nodes.rows ++ [.ofEntries es created] } }
  | "workflow_edges" =>
    let row := rowId db.edges es "row_id"
    { db with edges := { db.edges with rows := db.edges.rows ++ [.ofEntries es row] } }
  | _ => db

def loadFrom (now : Moment) (table : String) (db : Database) (index : Nat) :
    List Value → Database
  | [] => db
  | r :: rest => loadFrom now table (loadRow now table db index r.entries) (index + 1) rest

def loadAll (now : Moment) (db : Database) (table : String) (rows : List Value) : Database :=
  loadFrom now table db 0 rows

end StepGraph.Database
