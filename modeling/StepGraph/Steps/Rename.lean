import StepGraph.File.Name
import StepGraph.Run.State

/-!
Naming the files of a run. One base name is made from a template; it serves every kind of file
that is switched on.
-/
namespace StepGraph.Steps

def resolveName (run : Run) (template : Value) : Work String := do
  Work.of (FileName.resolve (← run.scope) (← run.responseScope) template)

/-- A name that is empty, or that has placeholders left. -/
def isIncomplete (name : String) : Bool :=
  Text.isBlankText name || Template.hasPlaceholders name

def emptyName (template : Value) : Except Fault Fault := do
  return .configuration ("Filename template '" ++ (← template.display) ++
    "' resolved to an empty filename and no fallback is configured")

def stamp (t : Time.Moment) : String :=
  Time.padded 4 t.year ++ Time.padded 2 t.month ++ Time.padded 2 t.day ++ "_" ++
    Time.padded 2 t.hour ++ Time.padded 2 t.minute ++ Time.padded 2 t.second

/-- The scanned document is renamed unless it is switched off, data files where switched on. -/
def isRenamed (config : Value) : FileKind → Bool
  | .pdf =>
    match config.field "renamePdf" with
    | .bool false => false
    | _ => true
  | .csv => (config.field "renameCsv").truthy
  | .json => (config.field "renameJson").truthy
  | .xml => (config.field "renameXml").truthy

def renamedKey : FileKind → String
  | .pdf => "renamedPdfFilename"
  | .csv => "renamedCsvFilename"
  | .json => "renamedJsonFilename"
  | .xml => "renamedXmlFilename"

def fileName (base : String) (kind : FileKind) : String := base ++ "." ++ kind.extension

/-- The run's main file: its data file when any data file is renamed. -/
def primaryKind (config : Value) (dataKind : FileKind) : FileKind :=
  if [FileKind.csv, .json, .xml].any (isRenamed config) then dataKind else .pdf

def baseName (run : Run) (config : Value) : Work (String × Bool) := do
  let template := (config.field "filenameTemplate").orElse (.text "")
  let first ← resolveName run template
  let fallback := config.field "fallbackFilename"
  let useFallback := isIncomplete first && fallback.truthy
  let resolved ← if useFallback then resolveName run fallback else pure first
  let base := FileName.withoutExtension (FileName.sanitized resolved)
  if base.isEmpty then throw (← Work.of (emptyName template))
  if (config.field "appendTimestamp").truthy then
    return (base ++ "_" ++ stamp (← Work.moment), useFallback)
  else return (base, useFallback)

def renameFile (run : Run) (node : Step Item) : Work Outcome := do
  let config ← Work.read node.config
  let (base, usedFallback) ← baseName run config
  let renamed := FileKind.all.filter (isRenamed config)
  let names : Entries Item := renamed.map fun k => (renamedKey k, .text (fileName base k))
  let primary : Item := .text (fileName base (primaryKind config run.dataKind))
  (names ++ [("renamedFilename", primary), ("actualFilename", primary)]).forM fun e =>
    run.set e.1 e.2
  let output ← Work.newObject ([("baseFilename", .text base), ("usedFallback", .bool usedFallback)] ++
    names ++ [("renamedFilename", primary)])
  return { output := output }

end StepGraph.Steps
