import StepGraph.Records.Profile
import StepGraph.Service.Collaborator
import StepGraph.Text.Charset
import StepGraph.Text.Search

/-!
Where messages and files go. A connection to send or to upload is closed whatever happens on it;
stored files are kept by bucket and key.
-/
namespace StepGraph.Mail

def mailFault (message : String) : Fault := .external ("Email send failed: " ++ message)

def noteMail (a : MailAction) : Work Unit := Work.note (.mail a)

def login (s : MailSettings) : Work Unit :=
  match s.username, s.password with
  | some u, some p => if !u.isEmpty && !p.isEmpty then noteMail (.login u p) else pure ()
  | _, _ => pure ()

def deliver (s : MailSettings) (m : Message) : Work Unit := do
  if s.useTls then noteMail .startTls
  login s
  match (← get).mail.failSend with
  | some text => throw (mailFault text)
  | none => noteMail (.send m)

def send (s : MailSettings) (m : Message) : Work Unit := do
  noteMail (.opening s.host s.port)
  match (← get).mail.failConnect with
  | some text => throw (mailFault text)
  | none =>
    let done ← Work.attempt (deliver s m)
    noteMail .close
    Work.of done

end StepGraph.Mail

namespace StepGraph.Sftp

open Text

def rootIfEmpty (s : String) : String := if s.isEmpty then "/" else s

/-- A file below a directory, with one slash between them; a name that starts with a slash is a
path of its own. -/
def remotePath (directory filename : String) : String :=
  let directory := rootIfEmpty (trim (rootIfEmpty directory))
  if startsWith filename "/" then filename
  else if endsWith directory "/" then directory ++ filename
  else directory ++ "/" ++ filename

def levelsFrom (above : String) : List String → List String
  | [] => []
  | part :: rest =>
    if part.isEmpty then levelsFrom above rest
    else (above ++ "/" ++ part) :: levelsFrom (above ++ "/" ++ part) rest

def levels (directory : String) : List String :=
  levelsFrom "" (split (stripRight '/' (stripLeft '/' directory)) "/")

def uploadFault (message : String) : Fault := .external ("SFTP upload failed: " ++ message)

def noteSftp (a : SftpAction) : Work Unit := Work.note (.sftp a)

def ensureDirectory (path : String) : Work Unit := do
  let w ← get
  if w.sftp.dirs.contains path then return
  set { w with sftp := { w.sftp with dirs := w.sftp.dirs ++ [path] } }
  noteSftp (.makeDirectory path)

def transfer (directory path : String) (data : ByteArray) : Work Unit := do
  (levels directory).forM ensureDirectory
  match (← get).sftp.failPut with
  | some m => throw (uploadFault m)
  | none => noteSftp (.put path data)

def upload (s : SftpSettings) (directory : String) (filename : Value) (data : ByteArray) :
    Work String := do
  let name ←
    match filename with
    | .text n => pure n
    | _ => throw .wrongKind
  let path := remotePath directory name
  noteSftp (.transport s.host s.port)
  let key := s.privateKey.filter (!·.isEmpty)
  noteSftp (.connect s.username s.password key)
  match (← get).sftp.failConnect with
  | some m =>
    noteSftp .closeTransport
    throw (uploadFault m)
  | none =>
    let done ← Work.attempt (transfer directory path data)
    noteSftp .close
    noteSftp .closeTransport
    Work.of done
    return path

end StepGraph.Sftp

namespace StepGraph.Storage

def write (bucket key : String) (data : ByteArray) : Work String := do
  let p ← Work.of (FileTree.locate (← get).files.root bucket key)
  let w ← get
  let r := w.files.write p data
  set { w with files := r.1 }
  match r.2 with
  | some trouble => throw (FileTree.report "write" bucket key trouble)
  | none => return key

def read (bucket key : String) : Work ByteArray := do
  let p ← Work.of (FileTree.locate (← get).files.root bucket key)
  match (← get).files.read p with
  | .ok b => return b
  | .error trouble => throw (FileTree.report "read" bucket key trouble)

def readText (bucket key : String) : Work String := do
  match String.fromUTF8? (← read bucket key) with
  | some s => return s
  | none => throw (.misuse .undecodable)

end StepGraph.Storage
