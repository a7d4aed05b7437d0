import StepGraph.Fault

/-!
One level of a value, read the way every rule reads it: what counts as true, the entry of an
object, the parts that an iteration meets. Trees and shared containers both look through a `View`.
-/
namespace StepGraph

def Scalar.truthy : Scalar → Bool
  | .null => false
  | .bool b => b
  | .int i => i != 0
  | .float x => x != 0.0
  | .text t => !t.isEmpty
  | .bytes b => b.size != 0
  | .moment _ => true

namespace View

variable {α : Type} (v : View α)

def null : α := v.leaf .null

def isNull (x : α) : Bool :=
  match v.layer x with
  | .scalar .null => true
  | _ => false

def isLeaf (x : α) : Bool :=
  match v.layer x with
  | .scalar .null => false
  | .scalar _ => true
  | _ => false

def isObject (x : α) : Bool :=
  match v.layer x with
  | .object _ => true
  | _ => false

def isList (x : α) : Bool :=
  match v.layer x with
  | .list _ => true
  | _ => false

def isText (x : α) : Bool :=
  match v.layer x with
  | .scalar (.text _) => true
  | _ => false

def truthy (x : α) : Bool :=
  match v.layer x with
  | .scalar s => s.truthy
  | .list xs => !xs.isEmpty
  | .object es => !es.isEmpty

def orElse (x y : α) : α := if v.truthy x then x else y

def child? (x : α) (k : String) : Option α :=
  match v.layer x with
  | .object es => Entries.get? es k
  | _ => none

def field (x : α) (k : String) : α := (v.child? x k).getD v.null

def member (x : α) (k : String) : Except Fault α :=
  match v.layer x with
  | .object es => .ok ((Entries.get? es k).getD v.null)
  | _ => .error .noSuchMember

/-- What an iteration meets: items, the characters of text, the keys of an object, bytes. -/
def parts (x : α) : Except Fault (List α) :=
  match v.layer x with
  | .list xs => .ok xs
  | .object es => .ok (es.map fun e => v.leaf (.text e.1))
  | .scalar (.text t) => .ok (t.toList.map fun c => v.leaf (.text c.toString))
  | .scalar (.bytes b) => .ok (b.toList.map fun n => v.leaf (.int n.toNat))
  | .scalar _ => .error .wrongKind

def optionalParts (x : α) : Except Fault (List α) := if v.truthy x then v.parts x else .ok []

def entries (x : α) : Entries α :=
  match v.layer x with
  | .object es => es
  | _ => []

end View

namespace Value

def isNull : Value → Bool := view.isNull
def isObject : Value → Bool := view.isObject
def isList : Value → Bool := view.isList
def isText : Value → Bool := view.isText
def truthy : Value → Bool := view.truthy
def orElse : Value → Value → Value := view.orElse
def field : Value → String → Value := view.field
def member : Value → String → Except Fault Value := view.member
def parts : Value → Except Fault (List Value) := view.parts
def optionalParts : Value → Except Fault (List Value) := view.optionalParts
def entries : Value → Entries Value := view.entries

def text? : Value → Option String
  | .text s => some s
  | _ => none

def null? (x : Value) : Option Value := if x.isNull then none else some x

end Value

end StepGraph
