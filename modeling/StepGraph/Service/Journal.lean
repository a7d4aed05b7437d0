import StepGraph.Service.Call

/-! External calls as documents, one object for each call, in which null settings are left out. -/
namespace StepGraph

def Mail.Message.entries (m : Mail.Message) : Entries Value :=
  let header (h : String × String) : Value := .texts [h.1, h.2]
  let part (p : Mail.Part) : Value :=
    .object [("type", .text p.contentType), ("disposition", .ofText? p.disposition),
      ("data", .bytes p.data)]
  [("headers", .list (m.headers.map header)), ("parts", .list (m.parts.map part))]

def FormPart.document (p : FormPart) : Value :=
  .list [p.name, .list [p.filename, .bytes p.content, p.contentType]]

def HttpRequest.entries (r : HttpRequest) : Entries Value :=
  let content := r.content.toList.map fun c => ("content", .text c)
  let files := r.files.toList.map fun fs => ("files", .list (fs.map FormPart.document))
  [("http", .text r.method), ("url", .text r.url),
    ("headers", .object (Entries.mapValues Value.text r.headers))] ++ content ++ files

def SftpAction.entries : SftpAction → Entries Value
  | .transport host port => [("sftp", .text "transport"), ("host", .text host), ("port", .int port)]
  | .connect user password key =>
    [("sftp", .text "connect"), ("username", .text user), ("password", .ofText? password),
      ("pkey", .ofText? (key.map ("key:" ++ ·)))]
  | .makeDirectory path => [("sftp", .text "mkdir"), ("path", .text path)]
  | .put path data => [("sftp", .text "put"), ("path", .text path), ("data", .bytes data)]
  | .close => [("sftp", .text "close")]
  | .closeTransport => [("sftp", .text "transport_close")]

def MailAction.entries : MailAction → Entries Value
  | .opening host port => [("smtp", .text "open"), ("host", .text host), ("port", .int port)]
  | .startTls => [("smtp", .text "starttls")]
  | .login user password =>
    [("smtp", .text "login"), ("username", .text user), ("password", .text password)]
  | .send m => ("smtp", .text "send") :: m.entries
  | .close => [("smtp", .text "close")]

def Call.entries : Call → Entries Value
  | .http r => r.entries
  | .ai parts temperature maxTokens =>
    [("ai", .list parts), ("temperature", .float temperature), ("max_tokens", .int maxTokens)]
  | .sftp a => a.entries
  | .mail a => a.entries

end StepGraph
