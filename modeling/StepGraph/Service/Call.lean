import StepGraph.Http.Target
import StepGraph.Mail.Message

/-! Everything that leaves the program, in the form in which it leaves. -/
namespace StepGraph

/-- One part of a form. Names and types come from configuration as they are. -/
structure FormPart where
  name : Value
  filename : Value
  content : ByteArray
  contentType : Value

structure HttpRequest where
  method : String
  url : String
  headers : Http.Headers := []
  content : Option String := none
  files : Option (List FormPart) := none

inductive SftpAction where
  | transport (host : String) (port : Int)
  | connect (username : String) (password key : Option String)
  | makeDirectory (path : String)
  | put (path : String) (data : ByteArray)
  | close
  | closeTransport

inductive MailAction where
  | opening (host : String) (port : Int)
  | startTls
  | login (username password : String)
  | send (m : Mail.Message)
  | close

inductive Call where
  | http (r : HttpRequest)
  | ai (parts : List Value) (temperature : Float) (maxTokens : Int)
  | sftp (a : SftpAction)
  | mail (a : MailAction)

end StepGraph
