import StepGraph.Edit

/-!
Copying parts of a response or a record into the context. What is copied is shared, not duplicated:
the context holds the same containers as the response.
-/
namespace StepGraph.Mapping

def sourceName : String := "responsePath"

def targetName : String := "updatePath"

/-- Applies one response mapping; a mapping that is incomplete, or whose value is missing, does
nothing. -/
def respond (c response : Item) (applied : Entries Item) (m : Value) : Edit (Entries Item) := do
  let source ← Edit.of (m.member sourceName)
  let target := m.field targetName
  if !source.truthy || !target.truthy then return applied
  let x ← Edit.lookup response source
  if x.isNull then return applied
  discard <| Edit.setPath c target x
  return applied.put (target.text?.getD "") x

def respondAll (c response : Item) (mappings : Value) : Edit (Entries Item) := do
  (← Edit.of mappings.optionalParts).foldlM (respond c response) []

def storeOutput (c : Item) (name : Value) (x : Item) : Edit Unit := do
  if !name.truthy then return
  let k ← Edit.of (Edit.keyOf name)
  Edit.set c k x
  match Context.extracted? (← get) c with
  | some e => Edit.set e k x
  | none => return

/-- Applies one record mapping: into the extracted data when it is an object, else into the
context, and to the context under the last place. -/
def record (c source : Item) (m : Value) : Edit Unit := do
  let path ← Edit.of (m.member sourceName)
  let target := m.field targetName
  if !path.truthy || !target.truthy then return
  let x ← Edit.lookup source path
  let root := (Context.extracted? (← get) c).getD c
  match ← Edit.setPath root target x with
  | some last => Edit.set c last x
  | none => return

def recordAll (c source : Item) (mappings : Value) : Edit Unit := do
  (← Edit.of mappings.optionalParts).forM (record c source)

end StepGraph.Mapping
