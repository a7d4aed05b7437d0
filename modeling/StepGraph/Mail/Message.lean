import StepGraph.Text.Charset
import StepGraph.Text.LetterCase
import StepGraph.Text.Search

/-!
Outgoing mail. A message has a text part, which is HTML when it holds both angle brackets, and at
most one attachment.
-/
namespace StepGraph.Mail

open Text

def recipients (s : String) : List String :=
  ((split (replace s ";" ",") ",").map trim).filter (!·.isEmpty)

structure Attachment where
  filename : String
  content : ByteArray
  contentType : String := "application/octet-stream"

structure Email where
  receivers : List String
  subject : String
  body : String
  cc : List String := []
  attachment : Option Attachment := none

structure Part where
  contentType : String
  disposition : Option String
  data : ByteArray

structure Message where
  headers : List (String × String)
  parts : List Part

/-- A content type without parameters; one that does not name two levels is plain text. -/
def plainType (s : String) : String :=
  let named := lower (trim (String.ofList (s.toList.takeWhile (· != ';'))))
  if named.toList.count '/' == 1 then named else "text/plain"

def orText (s default : String) : String := if s.isEmpty then default else s

def completeType (s : String) : String :=
  let main := String.ofList (s.toList.takeWhile (· != '/'))
  let sub := String.ofList ((s.toList.dropWhile (· != '/')).drop 1)
  orText main "application" ++ "/" ++ orText sub "octet-stream"

def bodyPart (body : String) : Part :=
  let marked := body.toList.contains '<' && body.toList.contains '>'
  ⟨if marked then "text/html" else "text/plain", none, body.toUTF8⟩

def attachmentPart (a : Attachment) : Part :=
  ⟨plainType (completeType a.contentType),
    some ("attachment; filename=\"" ++ a.filename ++ "\""), a.content⟩

def compose (e : Email) (sender : String) : Message where
  headers :=
    [("From", sender), ("To", join ", " e.receivers)] ++
      (if e.cc.isEmpty then [] else [("Cc", join ", " e.cc)]) ++ [("Subject", e.subject)]
  parts := bodyPart e.body :: (e.attachment.map attachmentPart).toList

end StepGraph.Mail
