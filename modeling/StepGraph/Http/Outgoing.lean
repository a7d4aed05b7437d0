import StepGraph.Http.Address
import StepGraph.Http.Form
import StepGraph.Service.Http

/-!
Requests as they leave. Fields and files make up a body of their own, and then a plain body is
ignored. The response is read in the same way for every status.
-/
namespace StepGraph.Http

structure Outgoing where
  method : String
  url : String
  headers : Entries Value := []
  body : ByteArray := .empty
  /-- Parameters take the place of the query that the address has. -/
  parameters : Option (Entries Value) := none
  data : Option (Entries Value) := none
  files : Option (List FormPart) := none

structure Sent where
  method : String
  address : Address
  contentType : Option String
  body : ByteArray
  headers : Headers

structure Received where
  status : Int
  reason : String
  body : Value

namespace Outgoing

def content (o : Outgoing) (boundary : String) : Except Fault (Option String × ByteArray) := do
  let data := o.data.getD []
  match o.files.getD [], o.files.isNone && o.data.isNone with
  | _, true => return (none, o.body)
  | [], _ =>
    if data.isEmpty then return (none, .empty)
    return (some "application/x-www-form-urlencoded", (← formLine data).toUTF8)
  | files, _ =>
    let parts := (← (fields data).mapM BodyPart.ofField) ++ (← files.mapM BodyPart.ofFile)
    return (some ("multipart/form-data; boundary=" ++ boundary), inParts boundary parts)

def isAscii (s : String) : Bool := s.toList.all (·.toNat < 0x80)

def header (e : String × Value) : Except Fault (String × String) :=
  match e.2 with
  | .text v =>
    if isAscii e.1 && isAscii v then .ok (Text.lower e.1, v)
    else .error (.misuse (.other "UnicodeEncodeError"))
  | _ => .error .wrongKind

/-- Headers that differ in letter case only become one. -/
def joined (hs : Headers) (h : String × String) : Headers :=
  hs.put h.1 ((hs.get? h.1).elim h.2 (· ++ ", " ++ h.2))

def address (o : Outgoing) : Except Fault Address := do
  let a := (← Address.read o.url).requested
  match o.parameters with
  | none => return a
  | some es =>
    let line ← formLine es
    return { a with query := if es.isEmpty then none else some line }

def sent (o : Outgoing) (boundary : String) : Except Fault Sent := do
  let address ← o.address
  let headers := (← o.headers.mapM header).foldl joined []
  let (type, body) ← o.content boundary
  return ⟨Text.upper o.method, address, (headers.get? "content-type").or type, body, headers⟩

/-- Cookies of a response cannot be told apart without the host that set them. -/
def withoutHost (a : Address) : Fault :=
  .invalid ("unknown url type: " ++ Text.quoted a.text)

def received (o : Outgoing) (a : Address) : HttpReply → Except Fault Received
  | .failure m =>
    .error (transportFault { method := Text.upper o.method, url := o.url } m)
  | .answer r => do
    if a.isRelative then throw (withoutHost a)
    return ⟨r.status, r.reason, ← readBody r.text⟩

def exchange (o : Outgoing) (boundary : String) (reply : HttpReply) :
    Option Sent × Except Fault Received :=
  match o.sent boundary with
  | .ok s => (some s, o.received s.address reply)
  | .error f => (none, .error f)

end Outgoing

end StepGraph.Http
