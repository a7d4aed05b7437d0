import StepGraph.Graph.Node

/-!
Which edge a walk takes. Edges are indexed by source node and handle; of several edges with one
key the first one counts. A named handle without an edge falls back to the default one.
-/
namespace StepGraph

abbrev EdgeMap := Entries (List Edge)

namespace EdgeMap

def handleOr (handle : String) : String := if handle.isEmpty then defaultHandle else handle

def key (source handle : String) : String := source ++ "::" ++ handleOr handle

def add (m : EdgeMap) (e : Edge) : EdgeMap :=
  let k := key e.source e.sourceHandle
  Entries.put m k ((Entries.get? m k).getD [] ++ [e])

def ofEdges (edges : List Edge) : EdgeMap := edges.foldl add []

def first? (m : EdgeMap) (source handle : String) : Option String :=
  ((Entries.get? m (key source handle)).bind List.head?).map Edge.target

/-- The node behind a handle; none when the walk ends here. -/
def next? (m : EdgeMap) (source handle : String) : Option String :=
  match m.first? source handle with
  | some t => some t
  | none => if handle == defaultHandle then none else m.first? source defaultHandle

end EdgeMap

structure Graph (κ : Type) where
  nodes : Entries (Node κ)
  edges : List Edge

namespace Graph

def idText (es : Entries Value) : Except Fault String := ((Entries.get? es "id").getD .null).display

def told (what : String) (es : Entries Value) {α : Type} (r : Except Fault α) : Except Fault α :=
  match r with
  | .ok x => .ok x
  | .error (.misuse m) => .error (.misuse m)
  | .error f => do
    throw (.badGraph ("Failed to parse " ++ what ++ " " ++ (← idText es) ++ ": " ++ f.message)
      f.problems)

def readNode (done : Entries (Node Value)) (v : Value) : Except Fault (Entries (Node Value)) :=
  match v with
  | .object es => do
    let n ← told "node" es (Node.ofEntries es)
    return done.put n.id n
  | _ => .error .noSuchMember

def readEdge (v : Value) : Except Fault Edge :=
  match v with
  | .object es => told "edge" es ((Edge.ofEntries es).toExcept "EdgeDefinition")
  | _ => .error .wrongKind

def read (nodes edges : List Value) : Except Fault (Graph Value) := do
  let nodes ← nodes.foldlM readNode []
  let edges ← edges.mapM readEdge
  return ⟨nodes, edges⟩

def starts {κ : Type} (nodes : Entries (Node κ)) : List Start :=
  nodes.filterMap fun e =>
    match e.2 with
    | .start s => some s
    | .step _ => none

def start {κ : Type} (g : Graph κ) : Except Fault Start :=
  match starts g.nodes with
  | s :: _ => .ok s
  | [] => .error (.badGraph "No start node found in workflow" [])

def plantNodes (s : Store) : Entries (Node Value) → Store × Entries (Node Item)
  | [] => (s, [])
  | (k, n) :: rest =>
    let a := n.plant s
    let b := plantNodes a.1 rest
    (b.1, (k, a.2) :: b.2)

def plant (s : Store) (g : Graph Value) : Store × Graph Item :=
  let r := plantNodes s g.nodes
  (r.1, ⟨r.2, g.edges⟩)

end Graph

def skipIfReason (config : Value) (scope : Scope) : Except Fault (Option String) :=
  let path := config.field "skipIf"
  if path.truthy then do
    match ← scope.findPath path with
    | .bool true => return some ("skipIf condition met: " ++ (← path.display) ++ " = true")
    | _ => return none
  else .ok none

def runIfReason (config : Value) (scope : Scope) : Except Fault (Option String) :=
  let path := config.field "runIf"
  if path.truthy then do
    match ← scope.findPath path with
    | .bool true => return none
    | v => return some ("runIf condition not met: " ++ (← path.display) ++ " = " ++ (← v.asText))
  else .ok none

/-- Why a step is passed over: its `skipIf` path holds exactly true, or its `runIf` path does not.
Other values that count as true do not matter. -/
def skipReason (config : Value) (scope : Scope) : Except Fault (Option String) := do
  match ← skipIfReason config scope with
  | some reason => return some reason
  | none => runIfReason config scope

end StepGraph
