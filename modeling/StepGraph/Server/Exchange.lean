import StepGraph.Fields
import StepGraph.Text.Quoted
import StepGraph.Server.Queue
import StepGraph.Text.LetterCase

/-!
Requests to a server and its responses. A request's parts are read by rules; all broken rules of a
request are reported together, each with the part in which it was broken.
-/
namespace StepGraph.Server

structure Incoming where
  method : String
  path : String
  query : List (String × String) := []
  headers : List (String × String) := []
  body : ByteArray := .empty

inductive Body where
  | document (v : Value)
  | text (s : String)
  /-- What is wrong with a request. -/
  | problems (ps : List FieldProblem)

structure Response where
  status : Int
  body : Body
  /-- A run that the response put into the queue. -/
  queued : Option QueuedRun := none

namespace Response

def document (v : Value) (status : Int := 200) : Except Fault Response :=
  match Json.fault? true v with
  | some u => .error u.fault
  | none =>
    if v.isFinite then .ok ⟨status, .document v, none⟩
    else .error (.invalid "Out of range float values are not JSON compliant")

def detail (status : Int) (text : String) : Response :=
  ⟨status, .document (.object [("detail", .text text)]), none⟩

def error (status : Int) (text : String) : Response :=
  ⟨status, .document (.object [("error", .text text), ("status_code", .int status)]), none⟩

def refused (ps : List FieldProblem) : Response := ⟨422, .problems ps, none⟩

end Response

namespace Incoming

def pairText (s : String) : String := Http.unescaped (Text.replace s "+" " ")

def queryPair (s : String) : String × String :=
  match Text.split s "=" with
  | [] => ("", "")
  | name :: value => (pairText name, pairText (Text.join "=" value))

def queryPairs (s : String) : List (String × String) :=
  ((Text.split s "&").filter (!·.isEmpty)).map queryPair

/-- A request for a target, which is a path and a query. Parameters given beside the target take
the place of the query in it. -/
def ofTarget (method target : String) (query headers : List (String × String)) (body : ByteArray) :
    Incoming :=
  let target := (Text.split target "#").headD ""
  let path := (Text.split target "?").headD ""
  let own := queryPairs (Text.join "?" ((Text.split target "?").drop 1))
  { method := method, path := Http.unescaped path, query := if query.isEmpty then own else query,
    headers := headers, body := body }

def header? (q : Incoming) (name : String) : Option String :=
  (q.headers.find? fun h => Text.lower h.1 == Text.lower name).map Prod.snd

def parameter? (q : Incoming) (name : String) : Option String := q.query.reverse.lookup name

def parameter {α : Type} (q : Incoming) (name : String) (default : α) (r : Rule α) : Checked α :=
  match q.parameter? name with
  | none => .ok default
  | some s => (Entries.check r name (.text s)).under "query"

def pathNumber (name id : String) : Checked Int :=
  (Entries.check Rule.whole name (.text id)).under "path"

/-- Whether a body is a document: it is when nothing is said, or when the type says so. -/
def saysDocument (q : Incoming) : Bool :=
  match (q.header? "content-type").filter (!·.isEmpty) with
  | none => true
  | some t =>
    match Text.split (Text.lower (Text.trim ((Text.split t ";").headD ""))) "/" with
    | ["application", kind] => kind == "json" || Text.endsWith kind "+json"
    | _ => false

inductive Content where
  | absent
  | document (v : Value)
  | opaqueBytes
  | malformed (place : Nat)
  | unreadable

def byteOrderMark : Char := '\ufeff'

def readText (s : String) : Content :=
  let s := match s.toList with
    | c :: rest => if c == byteOrderMark then String.ofList rest else s
    | [] => s
  match Json.parse s with
  | .ok .null => .absent
  | .ok v => .document v
  | .error (.complaint _ place _ _) => .malformed place
  | .error _ => .unreadable

def content (q : Incoming) : Content :=
  if q.body.size == 0 then .absent
  else if !q.saysDocument then .opaqueBytes
  else
    match String.fromUTF8? q.body with
    | some s => readText s
    | none => .unreadable

def fields {α : Type} (read : Entries Value → Checked α) : Content → Checked α
  | .document (.object es) => (read es).under "body"
  | .absent => .problems [⟨["body"], "missing"⟩]
  | _ => .problems [⟨["body"], "model_attributes_type"⟩]

/-- Goes on with the parts of a request, or says what is wrong with them. A body that is no
document is reported before anything else. -/
def withFields {α β γ : Type} (q : Incoming) (read : Entries Value → Checked α)
    (parts : Checked β) (f : β → α → γ) : Except Response γ :=
  match q.content with
  | .malformed place => .error (.refused [⟨["body", toString place], "json_invalid"⟩])
  | .unreadable => .error (.error 400 "There was an error parsing the body")
  | c =>
    match f <$> parts <*> fields read c with
    | .ok x => .ok x
    | .problems ps => .error (.refused ps)

end Incoming

end StepGraph.Server
