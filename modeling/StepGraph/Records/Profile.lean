import StepGraph.Records.Table
import StepGraph.File.Name

/-! Connection settings as they are stored. -/
namespace StepGraph

structure MainApi where
  id : Int
  baseUrl : String := ""
  token : Option String := none

structure SecondaryApi where
  id : Int
  name : String
  baseUrl : String := ""
  token : Option String := none
  isActive : Bool := true

structure SftpSettings where
  id : Int
  host : String
  port : Int := 22
  username : String
  password : Option String := none
  privateKey : Option String := none
  /-- Remote directory of each kind of file. -/
  directory : FileKind → Option String
  isDefault : Bool := false

structure MailSettings where
  id : Int
  host : String
  port : Int := 587
  username : Option String := none
  password : Option String := none
  useTls : Bool := true
  sender : String
  isDefault : Bool := false

instance : Numbered MainApi := ⟨MainApi.id⟩
instance : Numbered SecondaryApi := ⟨SecondaryApi.id⟩
instance : Numbered SftpSettings := ⟨SftpSettings.id⟩
instance : Numbered MailSettings := ⟨MailSettings.id⟩

open Column

def MainApi.ofEntries (es : Entries Value) (id : Int) : MainApi where
  id := id
  baseUrl := text es "base_url"
  token := text? es "auth_token"

def SecondaryApi.ofEntries (es : Entries Value) (id : Int) : SecondaryApi where
  id := id
  name := text es "name"
  baseUrl := text es "base_url"
  token := text? es "auth_token"
  isActive := flag es "is_active" true

def SftpSettings.ofEntries (es : Entries Value) (id : Int) : SftpSettings where
  id := id
  host := text es "host"
  port := int es "port" 22
  username := text es "username"
  password := text? es "password"
  privateKey := text? es "private_key"
  directory := fun k => text? es (k.extension ++ "_path")
  isDefault := flag es "is_default" false

def MailSettings.ofEntries (es : Entries Value) (id : Int) : MailSettings where
  id := id
  host := text es "smtp_host"
  port := int es "smtp_port" 587
  username := text? es "smtp_username"
  password := text? es "smtp_password"
  useTls := flag es "use_tls" true
  sender := text es "from_address"
  isDefault := flag es "is_default" false

def SftpSettings.kinds : List FileKind := [.pdf, .json, .csv, .xml]

def SftpSettings.entries (r : SftpSettings) : Entries Value :=
  [("id", .int r.id), ("host", .text r.host), ("port", .int r.port),
    ("username", .text r.username), ("password", .ofText? r.password),
    ("private_key", .ofText? r.privateKey)] ++
    SftpSettings.kinds.map fun k => (k.extension ++ "_path", .ofText? (r.directory k))

def MailSettings.entries (r : MailSettings) : Entries Value :=
  [("id", .int r.id), ("smtp_host", .text r.host), ("smtp_port", .int r.port),
    ("smtp_username", .ofText? r.username), ("smtp_password", .ofText? r.password),
    ("use_tls", .bool r.useTls), ("from_address", .text r.sender)]

end StepGraph
