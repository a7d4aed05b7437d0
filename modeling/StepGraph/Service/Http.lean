import StepGraph.File.Payload
import StepGraph.Service.Collaborator

/-! Sending requests. An answer of any status is a response; no answer is a fault. -/
namespace StepGraph.Http

def phrases : List (Int × String) :=
  [(100, "Continue"), (101, "Switching Protocols"), (102, "Processing"), (103, "Early Hints"),
   (200, "OK"), (201, "Created"), (202, "Accepted"), (203, "Non-Authoritative Information"),
   (204, "No Content"), (205, "Reset Content"), (206, "Partial Content"), (207, "Multi-Status"),
   (208, "Already Reported"), (226, "IM Used"), (300, "Multiple Choices"),
   (301, "Moved Permanently"), (302, "Found"), (303, "See Other"), (304, "Not Modified"),
   (305, "Use Proxy"), (307, "Temporary Redirect"), (308, "Permanent Redirect"),
   (400, "Bad Request"), (401, "Unauthorized"), (402, "Payment Required"), (403, "Forbidden"),
   (404, "Not Found"), (405, "Method Not Allowed"), (406, "Not Acceptable"),
   (407, "Proxy Authentication Required"), (408, "Request Timeout"), (409, "Conflict"),
   (410, "Gone"), (411, "Length Required"), (412, "Precondition Failed"),
   (413, "Request Entity Too Large"), (414, "Request-URI Too Long"),
   (415, "Unsupported Media Type"), (416, "Requested Range Not Satisfiable"),
   (417, "Expectation Failed"), (418, "I'm a teapot"), (421, "Misdirected Request"),
   (422, "Unprocessable Entity"), (423, "Locked"), (424, "Failed Dependency"),
   (425, "Too Early"), (426, "Upgrade Required"), (428, "Precondition Required"),
   (429, "Too Many Requests"), (431, "Request Header Fields Too Large"),
   (451, "Unavailable For Legal Reasons"), (500, "Internal Server Error"),
   (501, "Not Implemented"), (502, "Bad Gateway"), (503, "Service Unavailable"),
   (504, "Gateway Timeout"), (505, "HTTP Version Not Supported"),
   (506, "Variant Also Negotiates"), (507, "Insufficient Storage"), (508, "Loop Detected"),
   (510, "Not Extended"), (511, "Network Authentication Required")]

def phrase (status : Int) : String := (phrases.lookup status).getD ""

def isSuccess (status : Int) : Bool := 200 ≤ status && status < 300

def readBody (s : String) : Except Fault Value :=
  if s.isEmpty then .ok (.text s) else Payload.documentOr (.text s) s

end StepGraph.Http

namespace StepGraph

structure Response where
  status : Int
  reason : String
  body : Item

def Response.isSuccess (r : Response) : Bool := Http.isSuccess r.status

namespace Http

def emptyAnswer : HttpReply := .answer ⟨200, phrase 200, "\x7b\x7d"⟩

def transportFault (r : HttpRequest) (message : String) : Fault :=
  .stepFault .external ("HTTP request failed: " ++ message)
    (.object [("url", .text r.url), ("method", .text r.method), ("error", .text message)])

def reply : Work HttpReply := do
  let w ← get
  let next := w.http.next emptyAnswer
  set { w with http := next.2 }
  return next.1

def send (r : HttpRequest) : Work Response := do
  Work.note (.http r)
  match ← reply with
  | .failure m => throw (transportFault r m)
  | .answer a =>
    let body ← Work.plant (← Work.of (readBody a.text))
    return ⟨a.status, a.reason, body⟩

end Http

end StepGraph
