import StepGraph.Http.Target
import StepGraph.Records.Profile
import StepGraph.Value.Cast
import StepGraph.World

/-!
Connection profiles. Steps name a profile; the records say where it leads. Without a number, a
step gets the default profile, or else the first one.
-/
namespace StepGraph.Profile

structure Api where
  baseUrl : String
  token : Option String
  name : String := "main"

def Api.authHeaders (p : Api) : Http.Headers :=
  match p.token with
  | some t => if t.isEmpty then [] else [("Authorization", "Bearer " ++ t)]
  | none => []

def noSecondary : Fault :=
  .configuration "Secondary API selected but no secondaryApiId configured"

def secondary (id : Value) : Work Api := do
  if !id.truthy then throw noSecondary
  let found ← Work.of ((← Work.database).secondaryApis.find (← Work.of id.whole))
  match found.filter (·.isActive) with
  | some r => return ⟨r.baseUrl, r.token, r.name⟩
  | none =>
    throw (.configuration ("Secondary API configuration " ++ (← Work.of id.display) ++
      " not found"))

def main : Work Api := do
  let _ ← Work.of (← Work.database).mainApis.all
  match (← Work.database).mainApis.sorted with
  | r :: _ => return ⟨r.baseUrl, r.token, "main"⟩
  | [] => return ⟨"", none, "main"⟩

/-- The API that a source names; every name but one means the main API. -/
def api (source id : Value) : Work Api :=
  match source with
  | .text "secondary" => secondary id
  | _ => main

/-- The record with a number; without one the default record, or else the first. -/
def choose {ρ : Type} [Numbered ρ] (t : Table ρ) (isDefault : ρ → Bool) (id : Value)
    (missing : Fault) : Work ρ := do
  let found ←
    if id.truthy then Work.of (t.find (← Work.of id.whole))
    else do
      let _ ← Work.of t.all
      pure ((t.sorted.find? isDefault).or t.sorted.head?)
  match found with
  | some r => return r
  | none => throw missing

def portOr (default port : Int) : Int := if port == 0 then default else port

def sftp (id : Value) : Work SftpSettings := do
  let r ← choose (← Work.database).sftp SftpSettings.isDefault id
    (.configuration "No SFTP configuration found")
  return { r with port := portOr 22 r.port }

def mail (id : Value) : Work MailSettings := do
  let r ← choose (← Work.database).mail MailSettings.isDefault id
    (.configuration "No email configuration found")
  return { r with port := portOr 587 r.port }

def Api.entries (p : Api) : Entries Value :=
  [("base_url", .text p.baseUrl), ("auth_token", .ofText? p.token), ("name", .text p.name),
    ("auth_headers", .object (Entries.mapValues Value.text p.authHeaders))]

end StepGraph.Profile
