import StepGraph.Ai.Completion
import StepGraph.FieldFunction
import StepGraph.Service.Collaborator

/-!
Writing computed fields into the records of a payload. A mapping names a field and, by its key, a
function; the payload's orders are the records, or else the payload itself.
-/
namespace StepGraph.FieldFunction

/-! Functions that ask the AI provider for a part of an address. A provider that fails or replies
unreadably is asked again; without a provider or an address there is no result. -/

def lookupTokens : Int := 256

def defaultAttempts : Int := 3

def lookupName : String := "address_lookup"

def completed (prompt : String) : Work String := Ai.complete [Ai.textPart prompt] 0 lookupTokens

/-- The value that a reply gives; a reply that is no object is the value. -/
def answerOf (reply : Value) : Value := if reply.isObject then reply.field "value" else reply

section

variable {σ α : Type} (complete : String → Attempt σ String)

def askOf (prompt : String) : Attempt σ Value := do
  Attempt.of (Completion.read (← complete prompt) .null)

def lookupOf (a : Access α) (attempts : Int) (doc : α) (record : Scope) :
    Attempt σ (Option String) := do
  let address ← Attempt.of (address a doc record)
  if address.isEmpty then return none
  let prompt := lookupPrompt address (← Attempt.of (wanted a doc))
  let reply ← Attempt.retry Fault.isExternal (askOf complete prompt) (Attempt.further attempts)
  let value := answerOf reply
  if value.isNull then return none
  return some (Text.trim (← Attempt.of value.asText))

end

def lookup {α : Type} (a : Access α) (attempts : Int) (doc : α) (record : Scope) :
    Work (Option String) := do
  if (← get).ai.isNone then return none
  lookupOf completed a attempts doc record

def evaluateAny {α : Type} (a : Access α) (attempts : Int) (doc : α) (record : Scope) :
    Work (Result α) := do
  if (← Work.of (kind? a doc)) == some lookupName then
    match ← lookup a attempts doc record with
    | some s => return .text s
    | none => return .part a.null
  else Work.of (evaluate a doc record)

end StepGraph.FieldFunction

namespace StepGraph

def Scalar.wholeKey? : Scalar → Option Int
  | .bool b => some (if b then 1 else 0)
  | .int i => some i
  | .float x =>
    match Decimal.Reading.ofFloat x with
    | .finite d => if d.isWhole then some d.truncate else none
    | _ => none
  | _ => none

/-- Equal numbers are one key, whatever their kind. -/
def Scalar.sameKey (a b : Scalar) : Bool :=
  match a.wholeKey?, b.wholeKey? with
  | some x, some y => x == y
  | none, none => a == b
  | _, _ => false

namespace FieldFunction

/-- Functions by key; of several with one key the last one counts. -/
abbrev Library := List (Scalar × Item)

def Library.find (functions : Library) (key : Value) : Except Fault (Option Item) :=
  match key with
  | .scalar k => .ok ((functions.reverse.find? fun f => f.1.sameKey k).map Prod.snd)
  | _ => .error .wrongKind

/-- What is written for a result; null and empty text are not written. -/
def Result.written? (s : Store) : Result Item → Option Item
  | .text t => if t.isEmpty then none else some (.text t)
  | .part x =>
    match s.layer x with
    | .scalar .null => none
    | .scalar (.text t) => if t.isEmpty then none else some x
    | _ => some x

def writeField (record : Item) (path : Value) (x : Item) : Work Unit := do
  match path with
  | .text p =>
    let put (s : Store) : Store × Except Fault Unit :=
      match s.setField record p x with
      | (s', none) => (s', .ok ())
      | (s', some f) => (s', .error f)
    Work.edit (Edit.attempt put)
  | .bytes _ => throw .wrongKind
  | _ => throw .noSuchMember

def applyOne (attempts : Int) (functions : Library) (record : Item) (mapping : Value) :
    Work Bool := do
  let found ← Work.of (functions.find (← Work.of (mapping.member "functionId")))
  let path := mapping.field "fieldName"
  let s ← Work.store
  match found.filter s.view.truthy with
  | none => return false
  | some logic =>
    if !path.truthy then return false
    let result ← evaluateAny s.access attempts logic (← Work.scope record)
    match result.written? s with
    | none => return false
    | some x =>
      writeField record path x
      return true

def applyRecord (attempts : Int) (functions : Library) (mappings : List Value) (record : Item) :
    Work Nat := do
  if (← Work.store).isObject record then
    return ((← mappings.mapM (applyOne attempts functions record)).filter id).length
  else return 0

def records (s : Store) (payload : Item) : List Item :=
  match s.layer (s.field payload "orders") with
  | .list orders => orders
  | _ => [payload]

def applyAll (attempts : Int) (functions : Library) (mappings : List Value) (payload : Item) :
    Work Nat := do
  let counts ← (records (← Work.store) payload).mapM (applyRecord attempts functions mappings)
  return counts.foldl (· + ·) 0

end FieldFunction

end StepGraph
