import StepGraph.Service.Delivery
import StepGraph.Steps.Request
import StepGraph.Steps.Upload

/-! Sending a message with an optional attachment. -/
namespace StepGraph.Steps

def noRecipients : Fault := .configuration "Email action has no recipients"

/-- Who gets a copy: the user, unless already among the recipients. -/
def copyTo (run : Run) (config : Value) (recipients : List String) : Work (List Value) := do
  if !(config.field "ccUser").truthy then return []
  let user ← run.firstEntry ["submitterEmail", "senderEmail"]
  let known :=
    match user with
    | .text s => recipients.contains s
    | _ => false
  return if user.truthy && !known then [user] else []

structure NamedFile where
  name : Value
  content : ByteArray
  kind : FileKind

def NamedFile.attachment (f : NamedFile) : Except Fault Mail.Attachment := do
  return ⟨← f.name.display, f.content, f.kind.contentType⟩

def attached (run : Run) (source : Value) : Work NamedFile := do
  match source with
  | .text "extracted_data" =>
    let name := (← run.entryValue "renamedFilename").orElse
      (.text (fileName "extracted_data" run.dataKind))
    return ⟨name, ← dataOf run, run.dataKind⟩
  | _ =>
    let name := (← run.firstEntry ["renamedPdfFilename", "pdfFilename"]).orElse
      (.text "document.pdf")
    return ⟨name, ← pdfOf run, .pdf⟩

def attachmentOf (run : Run) (config : Value) : Work (Option NamedFile) := do
  if (config.field "includeAttachment").truthy then
    some <$> attached run ((config.field "attachmentSource").orElse (.text "original_pdf"))
  else return none

def emailAction (run : Run) (node : Step Item) : Work Outcome := do
  let config ← Work.read node.config
  let scope ← run.scope
  let recipients := Mail.recipients (← Work.of (templated config "to" scope))
  if recipients.isEmpty then throw noRecipients
  let cc ← copyTo run config recipients
  let subject ← Work.of (templated config "subject" scope)
  let body ← Work.of (templated config "body" scope)
  let file ← attachmentOf run config
  Work.require .profiles
  let p ← Profile.mail (config.field "emailConfigId")
  Work.require .mailer
  let email : Mail.Email :=
    { receivers := recipients, subject := subject, body := body, cc := ← Work.of (cc.mapM nameText),
      attachment := ← Work.of (file.mapM NamedFile.attachment) }
  Mail.send p (Mail.compose email p.sender)
  let output ← Work.plant (.object [("to", .texts recipients), ("cc", .list cc),
    ("subject", .text subject), ("attachmentFilename", .ofOption (file.map NamedFile.name)),
    ("isNotificationEmail", .bool (config.field "isNotificationEmail").truthy),
    ("sent", .bool true)])
  return { output := output }

end StepGraph.Steps
