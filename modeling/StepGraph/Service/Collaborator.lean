import StepGraph.World

/-!
Asking for a collaborator; one that is not there is a fault of configuration. What a generative
provider is asked is noted, and its next reply is the answer.
-/
namespace StepGraph

inductive Collaborator where
  | http
  | profiles
  | sftp
  | mailer
  | documents
  | storage
  | ai
  deriving DecidableEq, Repr

namespace Collaborator

def name : Collaborator → String
  | http => "http"
  | profiles => "profiles"
  | sftp => "sftp"
  | mailer => "mailer"
  | documents => "documents"
  | storage => "storage"
  | ai => "ai_provider"

def isOffered (w : World) : Collaborator → Bool
  | http => w.offered.http
  | profiles => w.offered.profiles
  | sftp => w.offered.sftp
  | mailer => w.offered.mailer
  | documents => w.offered.documents
  | storage => w.offered.storage
  | ai => w.ai.isSome

def absent : Collaborator → Fault
  | ai => .configuration "No AI provider configured. Set AI_MODEL and the matching API key."
  | c => .configuration ("Step requires '" ++ c.name ++ "' but it is not configured")

end Collaborator

def Work.require (c : Collaborator) : Work Unit := do
  if c.isOffered (← get) then return else throw c.absent

namespace Ai

def textPart (s : String) : Value := .object [("text", .text s)]

def inlinePart (data contentType : String) : Value :=
  .object [("inline_data", .object [("mime_type", .text contentType), ("data", .text data)])]

def defaultTemperature : Float := 0.1

def defaultMaxTokens : Int := 4096

def providerFault (message : String) : Fault := .stepFault .provider message .null

def provider : Work Provider := do
  match (← get).ai with
  | some p => return p
  | none => throw Collaborator.ai.absent

def emptyCompletion : AiReply := .completion "\x7b\x7d"

def complete (parts : List Value) (temperature : Float := defaultTemperature)
    (maxTokens : Int := defaultMaxTokens) : Work String := do
  let p ← provider
  Work.note (.ai parts temperature maxTokens)
  let (reply, rest) := p.script.next emptyCompletion
  modify fun w => { w with ai := some { p with script := rest } }
  match reply with
  | .completion s => return s
  | .failure m => throw (providerFault m)

end Ai

end StepGraph
