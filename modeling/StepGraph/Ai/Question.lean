import StepGraph.Ai.Model
import StepGraph.Service.Collaborator
import StepGraph.Text.Search

/-!
Questions as each vendor wants them, and what counts as the answer. A question is a row of parts:
texts, and documents that are written in base 64.
-/
namespace StepGraph.Ai

inductive Part where
  | text (t : Value)
  | document (contentType : String) (data : Value)

namespace Part

def defaultType : String := "application/pdf"

def isImage (contentType : String) : Bool := Text.startsWith contentType "image/"

def ofInline : Value → Except Fault Part
  | .object es =>
    let data := (Entries.get? es "data").getD (.text "")
    match (Entries.get? es "mime_type").getD (.text defaultType) with
    | .text t => .ok (.document t data)
    | .bytes _ => .error .wrongKind
    | _ => .error .noSuchMember
  | _ => .error .noSuchMember

/-- An object with a text is a text, whatever else it has; any other object is a document. -/
def ofValue : Value → Except Fault Part
  | .object es =>
    match Entries.get? es "text" with
    | some t => .ok (.text t)
    | none => ofInline (((Entries.get? es "inline_data").getD .null).orElse (.object []))
  | .text s => .error (if Text.occursIn "text".toList s.toList then .wrongKind else .noSuchMember)
  | .list xs =>
    .error (if xs.any fun x => x.text? == some "text" then .wrongKind else .noSuchMember)
  | _ => .error .wrongKind

def block (v : Vendor) : Part → Except Fault Value
  | text t => .ok (.object [("type", .text "text"), ("text", t)])
  | document contentType data =>
    match v with
    | .openAi => do
      let url := Value.text ("data:" ++ contentType ++ ";base64," ++ (← data.display))
      if isImage contentType then
        return .object [("type", .text "image_url"), ("image_url", .object [("url", url)])]
      else
        return .object [("type", .text "file"),
          ("file", .object [("filename", .text "document.pdf"), ("file_data", url)])]
    | .anthropic =>
      .ok (.object [("type", .text (if isImage contentType then "image" else "document")),
        ("source", .object [("type", .text "base64"), ("media_type", .text contentType),
          ("data", data)])])

end Part

/-- The GPT-5 family counts its own thinking towards the limit and has one temperature only. -/
def Model.isReasoning (m : Model) : Bool := Text.startsWith m.name "gpt-5"

def Model.question (m : Model) (parts : List Value) (temperature maxTokens : Value) :
    Except Fault (Entries Value) := do
  let content ← parts.mapM fun p => do (← Part.ofValue p).block m.vendor
  let messages : Value := .list [.object [("role", .text "user"), ("content", .list content)]]
  let limits : Entries Value :=
    if m.isReasoning then [("max_completion_tokens", maxTokens)]
    else [("max_tokens", maxTokens), ("temperature", temperature)]
  return [("model", .text m.apiName), ("messages", messages)] ++ limits

inductive Reply where
  | message (text : Option String)
  | blocks (bs : List (String × Option String))
  | failure (message : String)

/-- Text blocks make up the answer; blocks of other types do not count. -/
def Vendor.completion (v : Vendor) : Reply → Except Fault String
  | .message t => .ok (t.getD "")
  | .blocks bs => do
    let texts ← (bs.filter (·.1 == "text")).mapM fun b =>
      match b.2 with
      | some t => Except.ok t
      | none => .error Fault.wrongKind
    return String.join texts
  | .failure m => .error (providerFault (v.name ++ " API error: " ++ m))

def Model.generate (m : Model) (parts : List Value) (temperature maxTokens : Value)
    (reply : Reply) : List (Entries Value) × Except Fault String :=
  match m.question parts temperature maxTokens with
  | .ok settings => ([settings], m.vendor.completion reply)
  | .error f => ([], .error f)

end StepGraph.Ai
