import StepGraph.File.Payload
import StepGraph.Template
import StepGraph.Text.LetterCase
import StepGraph.Text.Quoted
import StepGraph.Text.Search

/-!
Where a request goes and what stands above it: the path of an endpoint with its variables, the query
parameters that are switched on, the address that base, path and parameters make, and the headers.
-/
namespace StepGraph.Http

open Text

abbrev Query := List (String × String)

def queryText (q : Query) : String :=
  join "&" (q.map fun p => percent p.1 ++ "=" ++ percent p.2)

def address (base path : String) (query : Query) : String :=
  let url := stripRight '/' base
  let url := if path.isEmpty then url else url ++ "/" ++ stripLeft '/' path
  if query.isEmpty then url else url ++ "?" ++ queryText query

def settings (config : Value) (name : String) : Except Fault (Entries Value) :=
  match (config.field name).orElse (.object []) with
  | .object es => .ok es
  | _ => .error .noSuchMember

def isEnabled (setting : Value) : Bool := setting.isObject && (setting.field "enabled").truthy

def withVariable (path name value : String) : String :=
  replace (replace path ("$\x7b" ++ name ++ "\x7d") value) ("\x7b" ++ name ++ "\x7d") value

def setVariable (scope : Scope) (path : Value) (e : String × Value) : Except Fault Value :=
  if isEnabled e.2 then do
    let value ← Template.resolve scope ((e.2.field "value").orElse (.text ""))
    match path with
    | .text p => return .text (withVariable p e.1 value)
    | .bytes _ => throw .wrongKind
    | _ => throw .noSuchMember
  else .ok path

/-- Path of an endpoint: configured variables first, then those that the context has. -/
def endpointPath (config : Value) (scope : Scope) : Except Fault String := do
  let configured ← settings config "pathVariableConfig"
  let path ← configured.foldlM (setVariable scope) ((config.field "apiPath").orElse (.text ""))
  match path with
  | .text p => Template.resolvePath scope p
  | _ => throw .wrongKind

/-- Quotes inside the values of a filter are doubled. -/
def isFilter (name : String) : Bool := lower name == "$filter"

def addParameter (scope : Scope) (query : Query) (e : String × Value) : Except Fault Query :=
  let value := e.2.field "value"
  if isEnabled e.2 && value.truthy then do
    match value with
    | .text v => return query ++ [(e.1, ← Template.resolveQuery scope v (isFilter e.1))]
    | _ => throw .wrongKind
  else .ok query

def queryParameters (config : Value) (scope : Scope) : Except Fault Query := do
  (← settings config "queryParameterConfig").foldlM (addParameter scope) []

abbrev Headers := Entries String

def resolveAll (scope : Scope) (es : Entries Value) : Except Fault Headers :=
  es.mapM fun e => do return (e.1, ← Template.resolve scope e.2)

/-- Headers written as an object or as document text; anything else gives none. -/
def readHeaders (raw : Value) (scope : Scope) : Except Fault Headers :=
  if !raw.truthy then .ok []
  else do
    let doc ←
      match raw with
      | .text s => Payload.documentOr .null s
      | v => pure v
    match doc with
    | .object es => resolveAll scope es
    | _ => return []

def contentTypeName : String := "Content-Type"

def withContentType (hs : Headers) : Headers :=
  if hs.any fun h => Text.lower h.1 == "content-type" then hs
  else Entries.put hs contentTypeName "application/json"

end StepGraph.Http
