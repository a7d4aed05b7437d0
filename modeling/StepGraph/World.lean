import StepGraph.Edit
import StepGraph.File.Tree
import StepGraph.Records.Database
import StepGraph.Service.Call

/-!
What a run works in: shared containers, records, stored files, a clock and the collaborators,
together with everything that was sent to them. `Work` is a program over it; what a program did
before a fault stays done.
-/
namespace StepGraph

structure Script (ρ : Type) where
  replies : List ρ := []

def Script.next {ρ : Type} (s : Script ρ) (default : ρ) : ρ × Script ρ :=
  match s.replies with
  | [] => (default, s)
  | [r] => (r, s)
  | r :: rest => (r, ⟨rest⟩)

structure HttpAnswer where
  status : Int
  reason : String
  text : String

inductive HttpReply where
  | answer (a : HttpAnswer)
  | failure (message : String)

inductive AiReply where
  | completion (text : String)
  | failure (message : String)

structure Provider where
  model : String
  script : Script AiReply

structure SftpServer where
  dirs : List String := []
  failConnect : Option String := none
  failPut : Option String := none

structure MailServer where
  failConnect : Option String := none
  failSend : Option String := none

/-- Which collaborators there are; the provider is told apart by itself. -/
structure Offered where
  http : Bool := true
  profiles : Bool := true
  sftp : Bool := true
  mailer : Bool := true
  documents : Bool := true
  storage : Bool := true

structure World where
  store : Store := {}
  db : Database := {}
  files : FileTree := {}
  /-- Seconds since 1970. -/
  now : Int := 0
  calls : List Call := []
  http : Script HttpReply := {}
  ai : Option Provider := none
  sftp : SftpServer := {}
  mail : MailServer := {}
  offered : Offered := {}
  /-- Whether each of the next log writes fails; behind the list all of them succeed. -/
  outages : List Bool := []
  /-- How many log writes did not come about. -/
  lost : Nat := 0
  /-- Names that are no text under which something was assigned, each with its container. -/
  oddNames : List (Item × Value) := []

abbrev Work (α : Type) := Attempt World α

namespace Work

variable {α : Type}

def of (r : Except Fault α) : Work α := Attempt.of r

def edit (e : Edit α) : Work α :=
  ExceptT.mk fun w =>
    let r := e.run w.store
    (r.1, { w with store := r.2 })

def attempt (body : Work α) : Work (Except Fault α) := Attempt.caught body

def store : Work Store := do return (← get).store

def read (i : Item) : Work Value := do of ((← store).read i)

def plant (v : Value) : Work Item := edit (Edit.plant v)

def newObject (es : Entries Item) : Work Item := edit (Edit.newObject es)

def newList (xs : List Item) : Work Item := edit (Edit.newList xs)

def scope (c : Item) : Work Scope := do return Scope.ofItem (← store) c

def note (c : Call) : Work Unit := modify fun w => { w with calls := w.calls ++ [c] }

def database : Work Database := do return (← get).db

def setDatabase (db : Database) : Work Unit := modify fun w => { w with db := db }

def moment : Work Time.Moment := do return ((Time.Moment.ofEpoch? (← get).now).getD default)

end Work

end StepGraph
